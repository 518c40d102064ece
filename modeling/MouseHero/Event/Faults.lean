import MouseHero.Event.Codec

/-!
# Faults of the codec

The codec reads and writes memory that it is handed or has allocated.  None of
its faults has to do with memory that has been freed.
-/

namespace MouseHero

open FaultM

variable {F : Type} {Result Next : Type}

/-- The fault is not an access to memory that has been freed. -/
def Fault.Spares (reason : Fault) : Prop :=
  reason ≠ .useAfterFree ∧ reason ≠ .doubleFree

theorem spares_nullDereference : Fault.Spares .nullDereference :=
  ⟨nofun, nofun⟩

theorem spares_paramType : Fault.Spares .paramType :=
  ⟨nofun, nofun⟩

private theorem spares_outOfBoundsRead : Fault.Spares .outOfBoundsRead :=
  ⟨nofun, nofun⟩

theorem spares_outOfBoundsWrite : Fault.Spares .outOfBoundsWrite :=
  ⟨nofun, nofun⟩

/-! ## Readers -/

/-- A reader that does not touch freed memory. -/
def Sparing (computation : ReaderM Result) : Prop :=
  ∀ reader, ConfinedAt (fun _ _ => True) Fault.Spares computation reader

theorem sparing_of_returns {computation : ReaderM Result}
    (returns : ∀ reader, ∃ value reached,
      computation reader = (.ok value, reached)) :
    Sparing computation := by
  intro reader
  obtain ⟨value, reached, returned⟩ := returns reader
  exact confinedAt_of_ok returned trivial

theorem sparing_pure (value : Result) :
    Sparing (pure value : ReaderM Result) :=
  fun _ => confinedAt_pure (fun _ => trivial) value

theorem sparing_bind {first : ReaderM Result} {next : Result → ReaderM Next}
    (firstSparing : Sparing first) (nextSparing : ∀ value, Sparing (next value)) :
    Sparing (first >>= next) :=
  fun reader =>
    confinedAt_bind (fun _ _ _ _ _ => trivial) (firstSparing reader)
      fun value reached _ _ => nextSparing value reached

theorem sparing_ite {condition : Prop} [Decidable condition]
    {yes no : ReaderM Result} (yesSparing : Sparing yes)
    (noSparing : Sparing no) : Sparing (if condition then yes else no) := by
  split
  · exact yesSparing
  · exact noSparing

theorem sparing_getState : Sparing (getState : ReaderM MpackReader) :=
  sparing_of_returns fun reader => ⟨reader, reader, rfl⟩

theorem advance_sparing (count : Nat) : Sparing (advance count) :=
  sparing_of_returns fun _ => ⟨_, _, rfl⟩

theorem mpackReaderFlagError_sparing (error : MpackError) :
    Sparing (mpackReaderFlagError error) :=
  sparing_of_returns fun _ => ⟨_, _, rfl⟩

theorem mpackReaderEnsure_sparing (count : Nat) :
    Sparing (mpackReaderEnsure count) := by
  apply sparing_of_returns
  intro reader
  unfold mpackReaderEnsure
  split
  · exact ⟨_, _, rfl⟩
  · exact ⟨_, _, rfl⟩

theorem loadBytes_sparing (offset count : Nat) :
    Sparing (loadBytes offset count) := by
  intro reader
  unfold loadBytes
  by_cases inside : offset + count ≤ reader.data.length
  · exact confinedAt_of_ok (if_pos inside) trivial
  · refine ⟨trivial, fun reason stopped => ?_⟩
    simp only [if_neg inside] at stopped
    cases stopped
    exact spares_outOfBoundsRead

theorem mpackReadTag_sparing : Sparing mpackReadTag := by
  apply sparing_bind sparing_getState
  intro reader
  apply sparing_ite (sparing_pure _)
  have parses : Sparing mpackParseTag := by
    apply sparing_bind (mpackReaderEnsure_sparing 1)
    intro ensured
    apply sparing_ite _ (sparing_pure _)
    apply sparing_bind (loadBytes_sparing _ _)
    intro type
    cases tagLayout (type.headD 0) with
    | immediate tag => exact sparing_pure _
    | sized width make =>
        apply sparing_bind (mpackReaderEnsure_sparing _)
        intro whole
        apply sparing_ite _ (sparing_pure _)
        exact sparing_bind (loadBytes_sparing _ _) fun _ => sparing_pure _
    | unusable error =>
        exact sparing_bind (mpackReaderFlagError_sparing _)
          fun _ => sparing_pure _
  apply sparing_bind parses
  intro tag
  cases tag with
  | none => exact sparing_pure _
  | some tag =>
      exact sparing_bind (advance_sparing _) fun _ => sparing_pure _

theorem expectFailure_sparing (value : Result) :
    Sparing (expectFailure value) :=
  sparing_bind (mpackReaderFlagError_sparing _) fun _ => sparing_pure _

theorem mpackExpectU32_sparing : Sparing mpackExpectU32 := by
  apply sparing_bind mpackReadTag_sparing
  intro tag
  cases tag
  case uint => exact sparing_ite (sparing_pure _) (expectFailure_sparing _)
  case int => exact sparing_ite (sparing_pure _) (expectFailure_sparing _)
  all_goals exact expectFailure_sparing _

theorem mpackExpectI32_sparing : Sparing mpackExpectI32 := by
  apply sparing_bind mpackReadTag_sparing
  intro tag
  cases tag
  case uint => exact sparing_ite (sparing_pure _) (expectFailure_sparing _)
  case int => exact sparing_ite (sparing_pure _) (expectFailure_sparing _)
  all_goals exact expectFailure_sparing _

theorem mpackExpectArray_sparing : Sparing mpackExpectArray := by
  apply sparing_bind mpackReadTag_sparing
  intro tag
  cases tag
  case array => exact sparing_pure _
  all_goals exact expectFailure_sparing _

theorem mpackExpectNative_sparing (width : Nat) :
    Sparing (mpackExpectNative width) := by
  apply sparing_bind sparing_getState
  intro reader
  apply sparing_ite (sparing_pure _)
  apply sparing_bind (mpackReaderEnsure_sparing _)
  intro ensured
  apply sparing_ite _ (sparing_pure _)
  apply sparing_bind (loadBytes_sparing _ _)
  intro bytes
  exact sparing_bind (advance_sparing _) fun _ => sparing_pure _

theorem mpackExpectStr_sparing : Sparing mpackExpectStr := by
  apply sparing_bind (mpackExpectNative_sparing _)
  intro type
  exact sparing_ite (sparing_pure _) <|
    sparing_ite (mpackExpectNative_sparing _) <|
    sparing_ite (mpackExpectNative_sparing _) <|
    sparing_ite (mpackExpectNative_sparing _) (expectFailure_sparing _)

theorem mpackReadBytes_sparing (count : Nat) :
    Sparing (mpackReadBytes count) := by
  apply sparing_bind sparing_getState
  intro reader
  apply sparing_ite
  · apply sparing_ite _ (sparing_pure _)
    exact sparing_bind (mpackReaderFlagError_sparing _)
      fun _ => sparing_pure _
  · apply sparing_bind (loadBytes_sparing _ _)
    intro bytes
    exact sparing_bind (advance_sparing _) fun _ => sparing_pure _

private theorem readText_sparing : Sparing readText := by
  apply sparing_bind mpackExpectStr_sparing
  intro strLen
  apply sparing_ite
  · exact fun _ =>
      confinedAt_fault (fun _ => trivial) spares_outOfBoundsWrite
  · exact sparing_bind (mpackReadBytes_sparing _) fun _ => sparing_pure _

private theorem readEventHeader_sparing : Sparing readEventHeader := by
  apply sparing_bind mpackExpectArray_sparing
  intro count
  have fields : Sparing (do
      let uid ← mpackExpectI32
      let type ← mpackExpectI32
      let direction ← mpackExpectI32
      let index ← mpackExpectI32
      pure {
        type := byteOfInt32 type
        direction := byteOfInt32 direction
        index := index.toUInt32
        uid := uid.toUInt32 } : ReaderM YAEventHeader) :=
    sparing_bind mpackExpectI32_sparing fun _ =>
      sparing_bind mpackExpectI32_sparing fun _ =>
        sparing_bind mpackExpectI32_sparing fun _ =>
          sparing_bind mpackExpectI32_sparing fun _ => sparing_pure _
  exact sparing_ite
    (sparing_bind (mpackReaderFlagError_sparing _) fun _ => fields) fields

/-! ## The parser -/

theorem Sparing.stops {computation : ReaderM Result} {reader : MpackReader}
    {reason : Fault} (sparing : Sparing computation)
    (stopped : (computation reader).1 = .error reason) : reason.Spares :=
  (sparing reader).2 reason stopped

private theorem deliver_spares {read : ReaderM (YAParam F)} (sparing : Sparing read)
    {data : List UInt8} {len : Nat} {reason : Fault}
    (stopped : deliver read data len = .error reason) : reason.Spares := by
  unfold deliver at stopped
  split at stopped
  · cases stopped
  · rename_i stop
    cases stopped
    exact sparing.stops stop

variable [CFloat F]

theorem mpackExpectFloat_sparing : Sparing (mpackExpectFloat (F := F)) := by
  apply sparing_bind mpackReadTag_sparing
  intro tag
  cases tag
  case uint => exact sparing_pure _
  case int => exact sparing_pure _
  case float => exact sparing_pure _
  case double => exact sparing_pure _
  all_goals exact expectFailure_sparing _

private theorem callParser_spares {header : YAEventHeader} {payload : List UInt8}
    {len : Nat} {reason : Fault}
    (stopped :
      (callParser header payload len : Except Fault (ParserResult F)) =
        .error reason) :
    reason.Spares := by
  unfold callParser getParser at stopped
  have common : Sparing (do
      let _ ← mpackExpectArray
      let lparam ← mpackExpectI32
      let rparam ← mpackExpectI32
      pure (.common { lparam, rparam }) : ReaderM (YAParam F)) :=
    sparing_bind mpackExpectArray_sparing fun _ =>
      sparing_bind mpackExpectI32_sparing fun _ =>
        sparing_bind mpackExpectI32_sparing fun _ => sparing_pure _
  cases known : YAEventType.ofCode? header.type with
  | none =>
      rw [known] at stopped
      cases stopped
  | some type =>
      rw [known] at stopped
      cases type with
      | mouseMove | mouseClick | mouseWheel | control =>
          exact deliver_spares common stopped
      | keyboard =>
          exact deliver_spares
            (sparing_bind mpackExpectArray_sparing fun _ =>
              sparing_bind mpackExpectI32_sparing fun _ =>
                sparing_bind mpackExpectI32_sparing fun _ =>
                  sparing_bind mpackExpectU32_sparing fun _ => sparing_pure _)
            stopped
      | textInput | textGet =>
          exact deliver_spares
            (sparing_bind readText_sparing fun _ => sparing_pure _) stopped
      | authorize =>
          exact deliver_spares
            (sparing_bind mpackExpectArray_sparing fun _ =>
              sparing_bind mpackExpectU32_sparing fun _ =>
                sparing_bind mpackExpectU32_sparing fun _ => sparing_pure _)
            stopped
      | sessionOption =>
          refine deliver_spares ?_ stopped
          apply sparing_bind mpackExpectArray_sparing
          intro _
          apply sparing_bind sparing_getState
          intro reader
          exact sparing_ite
            (sparing_bind mpackExpectFloat_sparing fun _ => sparing_pure _)
            (sparing_pure _)
      | discover =>
          exact deliver_spares
            (sparing_bind mpackExpectU32_sparing fun _ => sparing_pure _)
            stopped
      | heartbeat | mouseStop => cases stopped

theorem yaGetPackageSize_spares {buffer : List UInt8} {reason : Fault}
    (stopped : yaGetPackageSize buffer = .error reason) : reason.Spares := by
  by_cases short : buffer.length < 4
  · rw [yaGetPackageSize_of_short short] at stopped
    cases stopped
    exact spares_nullDereference
  · rw [yaGetPackageSize_of_word (Nat.not_lt.mp short)] at stopped
    cases stopped

theorem yaParseEvent_spares {buf : List UInt8} {event : YAEvent F}
    {size : YAPackageSize} {reason : Fault}
    (stopped : yaParseEvent buf event size = .error reason) :
    reason.Spares := by
  have header {reason : Fault}
      (stopped : yaParseEventHeader buf size.headerSize = .error reason) :
      reason.Spares := by
    unfold yaParseEventHeader at stopped
    split at stopped
    · cases stopped
    · split at stopped
      · cases stopped
      · split at stopped
        · rename_i outcome
          cases stopped
          apply readEventHeader_sparing.stops
          rw [outcome]
        · split at stopped <;> cases stopped
  have stage {reason : Fault} (stopped : bodyStage buf size = .error reason) :
      reason.Spares := by
    unfold bodyStage at stopped
    cases parsed : yaParseEventHeader buf size.headerSize with
    | error stop =>
        rw [parsed] at stopped
        cases stopped
        exact header parsed
    | ok found =>
        rw [parsed] at stopped
        cases found with
        | none => cases stopped
        | some found =>
            simp only [except_ok_bind] at stopped
            split at stopped
            · cases stopped
            · split at stopped <;> cases stopped
  unfold yaParseEvent at stopped
  cases staged : bodyStage buf size with
  | error stop =>
      rw [staged] at stopped
      cases stopped
      exact stage staged
  | ok reached =>
      rw [staged] at stopped
      cases reached with
      | refused => cases stopped
      | noBody => cases stopped
      | body found payload rest =>
          simp only [except_ok_bind] at stopped
          cases called :
              (callParser found payload (sizeOfInt (contentLen size)) :
                Except Fault (ParserResult F)) with
          | error stop =>
              rw [called] at stopped
              cases stopped
              exact callParser_spares called
          | ok result =>
              rw [called] at stopped
              simp only [except_ok_bind] at stopped
              split at stopped <;> cases stopped

/-! ## The serializer -/

section Serializers

variable {param : Option (YAParam F)} {reason : Fault}

omit [CFloat F]

private theorem serializeCommonRequest_spares
    (stopped : serializeCommonRequest param = .error reason) :
    reason.Spares := by
  cases param with
  | none =>
      cases stopped
      exact spares_nullDereference
  | some param =>
      cases param <;> cases stopped
      all_goals exact spares_paramType

private theorem serializeKeyboardRequest_spares
    (stopped : serializeKeyboardRequest param = .error reason) :
    reason.Spares := by
  cases param with
  | none =>
      cases stopped
      exact spares_nullDereference
  | some param =>
      cases param <;> cases stopped
      all_goals exact spares_paramType

private theorem serializeDiscoverResponse_spares
    (stopped : serializeDiscoverResponse param = .error reason) :
    reason.Spares := by
  cases param with
  | none =>
      cases stopped
      exact spares_nullDereference
  | some param =>
      cases param <;> cases stopped
      all_goals exact spares_paramType

theorem writeText_spares {text : CString}
    (stopped :
      (do
        let bytes ← writeCString text
        pure ((0 : Int), bytes)) = .error reason) :
    reason.Spares := by
  cases text with
  | none =>
      cases stopped
      exact spares_nullDereference
  | some bytes => cases stopped

private theorem serializeTextInputRequest_spares
    (stopped : serializeTextInputRequest param = .error reason) :
    reason.Spares := by
  cases param with
  | none =>
      cases stopped
      exact spares_nullDereference
  | some param =>
      cases param
      case textInput request => exact writeText_spares stopped
      all_goals
        cases stopped
        exact spares_paramType

private theorem serializeTextGetResponse_spares
    (stopped : serializeTextGetResponse param = .error reason) :
    reason.Spares := by
  cases param with
  | none =>
      cases stopped
      exact spares_nullDereference
  | some param =>
      cases param
      case inputGet response => exact writeText_spares stopped
      all_goals
        cases stopped
        exact spares_paramType

end Serializers

private theorem serializeAuthorizeResponse_spares {param : Option (YAParam F)}
    {reason : Fault}
    (stopped : serializeAuthorizeResponse param = .error reason) :
    reason.Spares := by
  cases param with
  | none =>
      cases stopped
      exact spares_nullDereference
  | some param =>
      cases param
      case authorizeResponse response =>
        -- The list of addresses is never null here.
        simp only [serializeAuthorizeResponse, writeCString, except_ok_bind]
          at stopped
        split at stopped <;> cases stopped
      all_goals
        cases stopped
        exact spares_paramType

private theorem serializeBody_spares {event : YAEvent F} {reason : Fault}
    (stopped : serializeBody event = .error reason) : reason.Spares := by
  unfold serializeBody getSerializer at stopped
  cases known : YAEventType.ofCode? event.header.type with
  | none =>
      rw [known] at stopped
      cases stopped
  | some type =>
      rw [known] at stopped
      cases type with
      | mouseMove | mouseClick | mouseWheel | control =>
          exact serializeCommonRequest_spares stopped
      | keyboard => exact serializeKeyboardRequest_spares stopped
      | textInput => exact serializeTextInputRequest_spares stopped
      | textGet => exact serializeTextGetResponse_spares stopped
      | authorize => exact serializeAuthorizeResponse_spares stopped
      | discover => exact serializeDiscoverResponse_spares stopped
      | heartbeat | mouseStop | sessionOption => cases stopped

theorem yaSerializeEvent_spares {event : YAEvent F} {reason : Fault}
    (stopped : yaSerializeEvent event = .error reason) : reason.Spares := by
  unfold yaSerializeEvent at stopped
  cases written : serializeBody event with
  | error stop =>
      rw [written] at stopped
      cases stopped
      exact serializeBody_spares written
  | ok result =>
      rw [written] at stopped
      simp only [except_ok_bind] at stopped
      split at stopped
      · cases stopped
      · split at stopped
        · cases stopped
          exact spares_nullDereference
        · split at stopped
          · cases stopped
            exact spares_outOfBoundsWrite
          · cases stopped

end MouseHero
