import Mathlib.Data.List.Infix
import MouseHero.Event.Types
import MouseHero.Library.Allocations
import MouseHero.Library.FaultState
import MouseHero.Library.MemoryBlocks
import MouseHero.Library.Numerals

/-!
# The list of hardware addresses

`ya_get_macs_csv` in the Linux branch.  The addresses are collected in a block
of memory whose capacity is doubled when the next one does not fit.
-/

namespace MouseHero

open FaultM Numerals

/-! ## Interfaces -/

abbrev IFF_LOOPBACK : UInt32 := 8

abbrev AF_PACKET : UInt16 := 17

/-- `struct sockaddr`; the fields behind the family are those of `sockaddr_ll`, and
are only looked at when the family is `AF_PACKET`. -/
structure SockAddr where
  saFamily : UInt16
  sllHalen : UInt8
  sllAddr : Vector UInt8 8

/-- An entry of the list that `getifaddrs` makes. -/
structure Ifaddrs where
  ifaFlags : UInt32
  ifaAddr : Option SockAddr

/-- `all_zero`, over the first six bytes. -/
def allZero (mac : List UInt8) : Bool :=
  (mac.take 6).all fun byte => byte == 0

/-- Bytes with colons between them. -/
def colonText (bytes : List UInt8) : List UInt8 :=
  [byteOfChar ':'].intercalate (bytes.map hexByte)

/-- `format_mac_lower_colon`, where it does not return `-1`. -/
def formatMacLowerColon (bytes : List UInt8) (len outSize : Nat) :
    Option (List UInt8) :=
  if len < 6 ∨ outSize < 18 then none
  else some ((colonText (bytes.take 6)).take (outSize - 1))

/-- The size of `macstr`. -/
abbrev MACSTR_SIZE : Nat := 32

/-- The text for an entry, if the loop does not skip it. -/
def macText (entry : Ifaddrs) : Option (List UInt8) :=
  match entry.ifaAddr with
  | none => none
  | some address =>
      if entry.ifaFlags &&& IFF_LOOPBACK ≠ 0 then none
      else if address.saFamily = AF_PACKET then
        if address.sllHalen ≠ 6 then none
        else if allZero address.sllAddr.toList then none
        else formatMacLowerColon address.sllAddr.toList 6 MACSTR_SIZE
      else none

/-! ## Memory -/

/-- What the function can run into. -/
inductive MacsFault where
  | outOfBoundsWrite
  /-- The loop that doubles the capacity does not end. -/
  | diverges
  deriving DecidableEq

/-- The calls so far, the latest first. -/
abbrev MacsM := FaultM MacsFault (List Allocation)

/-- Ask for memory. -/
def allocate (allocator : Allocator) (size : Nat) : MacsM (Option (Nat → UInt8)) := do
  let calls ← getState
  let answer := allocator.answer calls.length size
  modifyState fun calls => { size := size, granted := answer.isSome } :: calls
  return answer

/-- The local variables of the loop. -/
structure CsvBuffer where
  buf : MemoryBlock
  cap : Nat
  len : Nat

/-- A write that has to lie in the block. -/
def checked (written : Option MemoryBlock) : MacsM MemoryBlock :=
  match written with
  | none => fault .outOfBoundsWrite
  | some block => return block

/-- `while (len + need >= newcap) newcap *= 2;`.  After 64 rounds the capacity has
wrapped around to zero, where it stays. -/
def doubleCapacity (needed : Nat) : Nat → Nat → MacsM Nat
  | 0, _ => fault .diverges
  | rounds + 1, newcap =>
      if needed ≥ newcap then doubleCapacity needed rounds (sizeT (newcap * 2))
      else return newcap

/-- Make sure that there is room, unless `realloc` fails. -/
def growBuffer (allocator : Allocator) (buffer : CsvBuffer) (need : Nat) :
    MacsM (Option CsvBuffer) := do
  if sizeT (buffer.len + need) ≥ buffer.cap then
    let newcap ← doubleCapacity (sizeT (buffer.len + need)) 65 (sizeT (buffer.cap * 2))
    match ← allocate allocator newcap with
    | none => return none
    | some fresh =>
        return some
          { buffer with buf := buffer.buf.resize newcap fresh, cap := newcap }
  else
    return some buffer

/-- The comma, if one is needed: `buf[len++] = ','; buf[len] = '\0';`. -/
def putComma (buffer : CsvBuffer) : MacsM CsvBuffer := do
  if buffer.len > 0 then
    let buf ← checked (buffer.buf.store buffer.len (byteOfChar ','))
    let buf ← checked (buf.store (sizeT (buffer.len + 1)) 0)
    return { buffer with buf := buf, len := sizeT (buffer.len + 1) }
  else
    return buffer

/-- Append a text to the list, unless `realloc` fails. -/
def appendMac (allocator : Allocator) (buffer : CsvBuffer) (macstr : List UInt8) :
    MacsM (Option CsvBuffer) := do
  let need := macstr.length + 1 + if buffer.len > 0 then 1 else 0
  match ← growBuffer allocator buffer need with
  | none => return none
  | some buffer =>
      let buffer ← putComma buffer
      -- `strcpy` and the new length.
      let buf ← checked (buffer.buf.storeAll buffer.len (macstr ++ [0]))
      return some { buffer with buf := buf, len := sizeT (buffer.len + macstr.length) }

/-- The loop over the entries. -/
def appendMacs (allocator : Allocator) :
    List Ifaddrs → CsvBuffer → MacsM (Option CsvBuffer)
  | [], buffer => return some buffer
  | entry :: entries, buffer =>
      match macText entry with
      | none => appendMacs allocator entries buffer
      | some macstr => do
          match ← appendMac allocator buffer macstr with
          | none => return none
          | some buffer => appendMacs allocator entries buffer

/-- The part of `ya_get_macs_csv` behind the allocation of the buffer. -/
def collectMacs (allocator : Allocator) (entries : List Ifaddrs)
    (fresh : Nat → UInt8) : MacsM (Option MemoryBlock) := do
  let buf ← checked (MemoryBlock.store { size := 128, bytes := fresh } 0 0)
  match ← appendMacs allocator entries { buf := buf, cap := 128, len := 0 } with
  | none => return none
  | some buffer => if buffer.len = 0 then return none else return some buffer.buf

/-- `ya_get_macs_csv`, by the list of `getifaddrs` if that does not fail: the block
that is returned. -/
def yaGetMacsCsv (allocator : Allocator) (ifaddr : Option (List Ifaddrs)) :
    MacsM (Option MemoryBlock) :=
  match ifaddr with
  | none => return none
  | some entries => do
      match ← allocate allocator 128 with
      | none => return none
      | some fresh => collectMacs allocator entries fresh

/-! ## The list that is wanted -/

/-- A packet interface that is not a loopback and has an address of six bytes that
are not all zero. -/
def isListed (entry : Ifaddrs) : Bool :=
  match entry.ifaAddr with
  | none => false
  | some address =>
      entry.ifaFlags &&& IFF_LOOPBACK == 0 && address.saFamily == AF_PACKET &&
        address.sllHalen == 6 && (address.sllAddr.toList.take 6).any (· != 0)

/-- The hardware address of an interface. -/
def hardwareAddress (entry : Ifaddrs) : List UInt8 :=
  match entry.ifaAddr with
  | none => []
  | some address => address.sllAddr.toList.take 6

/-- Texts with commas between them. -/
def commaText (texts : List (List UInt8)) : List UInt8 :=
  [byteOfChar ','].intercalate texts

/-- The addresses that are listed, in order. -/
def listedMacs (entries : List Ifaddrs) : List (List UInt8) :=
  (entries.filter isListed).map fun entry => colonText (hardwareAddress entry)

/-! ## The texts -/

theorem notMem_intercalate {separator : List UInt8} {texts : List (List UInt8)}
    {byte : UInt8} (notSeparator : byte ∉ separator)
    (notText : ∀ text ∈ texts, byte ∉ text) :
    byte ∉ separator.intercalate texts := by
  induction texts with
  | nil => exact List.not_mem_nil
  | cons text texts inductionHypothesis =>
      obtain ⟨notFirst, notRest⟩ := List.forall_mem_cons.mp notText
      cases texts with
      | nil => rwa [List.intercalate_singleton]
      | cons next texts =>
          rw [List.intercalate_cons_cons, List.mem_append, List.mem_append]
          intro member
          rcases member with (isFirst | isSeparator) | isRest
          · exact notFirst isFirst
          · exact notSeparator isSeparator
          · exact inductionHypothesis notRest isRest

theorem nul_notMem_colonText (bytes : List UInt8) : 0 ∉ colonText bytes := by
  apply notMem_intercalate (by decide)
  intro text member
  obtain ⟨byte, _, rfl⟩ := List.mem_map.mp member
  exact nul_notMem_hexByte byte

private theorem length_colonText_add_one {bytes : List UInt8} (nonempty : bytes ≠ []) :
    (colonText bytes).length + 1 = 3 * bytes.length := by
  induction bytes with
  | nil => exact absurd rfl nonempty
  | cons byte bytes inductionHypothesis =>
      cases bytes with
      | nil => rfl
      | cons next bytes =>
          have rest := inductionHypothesis (List.cons_ne_nil _ _)
          have parts : colonText (byte :: next :: bytes) =
              hexByte byte ++ [byteOfChar ':'] ++ colonText (next :: bytes) :=
            List.intercalate_cons_cons
          rw [parts, List.length_append, List.length_append, length_hexByte,
            List.length_singleton, List.length_cons]
          omega

theorem length_colonText {bytes : List UInt8} (six : bytes.length = 6) :
    (colonText bytes).length = 17 := by
  have nonempty : bytes ≠ [] := by
    intro empty
    rw [empty] at six
    cases six
  have length := length_colonText_add_one nonempty
  omega

theorem commaText_concat (texts : List (List UInt8)) (text : List UInt8) :
    commaText (texts ++ [text]) =
      commaText texts ++ (if texts = [] then [] else [byteOfChar ',']) ++ text := by
  induction texts with
  | nil => exact List.intercalate_singleton
  | cons first texts inductionHypothesis =>
      cases texts with
      | nil => simp [commaText, List.intercalate_cons_cons]
      | cons next texts =>
          have front : commaText (first :: next :: texts) =
              first ++ [byteOfChar ','] ++ commaText (next :: texts) :=
            List.intercalate_cons_cons
          have whole : commaText (first :: next :: texts ++ [text]) =
              first ++ [byteOfChar ','] ++ commaText (next :: texts ++ [text]) :=
            List.intercalate_cons_cons
          rw [whole, inductionHypothesis, front]
          simp

theorem length_take_six (address : SockAddr) :
    (address.sllAddr.toList.take 6).length = 6 := by
  rw [List.length_take, Vector.length_toList]
  rfl

private theorem formatMacLowerColon_eq (address : SockAddr) :
    formatMacLowerColon address.sllAddr.toList 6 MACSTR_SIZE =
      some (colonText (address.sllAddr.toList.take 6)) := by
  have length := length_colonText (length_take_six address)
  rw [formatMacLowerColon, if_neg (by decide), List.take_of_length_le]
  rw [length]
  decide

theorem macText_eq (entry : Ifaddrs) :
    macText entry =
      if isListed entry then some (colonText (hardwareAddress entry)) else none := by
  cases hasAddress : entry.ifaAddr with
  | none => simp [macText, isListed, hasAddress]
  | some address =>
      have zero : allZero address.sllAddr.toList =
          !(address.sllAddr.toList.take 6).any (· != 0) := by
        rw [allZero, List.not_any_eq_all_not]
        apply List.all_congr rfl
        intro byte
        exact (Bool.not_not _).symm
      simp only [macText, isListed, hardwareAddress, hasAddress, formatMacLowerColon_eq,
        zero]
      -- The four tests of the loop are those of the list, one behind the other.
      by_cases loopback : entry.ifaFlags &&& IFF_LOOPBACK = 0
      · by_cases packet : address.saFamily = AF_PACKET
        · by_cases six : address.sllHalen = 6
          · cases nonzero : (address.sllAddr.toList.take 6).any (· != 0) <;>
              simp [loopback, packet, six]
          · simp [loopback, packet, six]
        · simp [loopback, packet]
      · simp [loopback]

/-! ## The buffer -/

/-- What the buffer is after texts were appended. -/
structure Collected (texts : List (List UInt8)) (buffer : CsvBuffer) : Prop where
  sized : buffer.cap = buffer.buf.size
  least : 128 ≤ buffer.cap
  bounded : buffer.cap ≤ PTRDIFF_MAX
  counted : buffer.len = (commaText texts).length
  holds : buffer.buf.Holds (commaText texts ++ [0])
  lengths : ∀ text ∈ texts, text.length = 17

/-- The computation returns.  It either goes on with what is wanted, or it gives up
after a call that was refused. -/
inductive MacsOutcome (wanted : CsvBuffer → Prop) (calls : List Allocation) :
    Except MacsFault (Option CsvBuffer) × List Allocation → Prop
  | continues {buffer : CsvBuffer} {reached : List Allocation} :
      (AllGranted calls ↔ AllGranted reached) → wanted buffer →
      MacsOutcome wanted calls (.ok (some buffer), reached)
  | gaveUp {reached : List Allocation} :
      ¬ AllGranted reached → MacsOutcome wanted calls (.ok none, reached)

section Buffers

variable {texts : List (List UInt8)} {buffer : CsvBuffer} {allocator : Allocator}
variable {calls : List Allocation}

theorem allocate_apply (allocator : Allocator) (size : Nat) (calls : List Allocation) :
    allocate allocator size calls =
      (.ok (allocator.answer calls.length size),
        { size := size, granted := (allocator.answer calls.length size).isSome } ::
          calls) :=
  rfl

theorem Collected.len_lt (collected : Collected texts buffer) :
    buffer.len < buffer.cap := by
  have inside := collected.holds.inside
  rw [List.length_append, List.length_singleton, ← collected.counted,
    ← collected.sized] at inside
  exact inside

/-- The loop ends at once when the first doubling is enough. -/
theorem doubleCapacity_of_lt {needed newcap : Nat} (enough : needed < newcap)
    (rounds : Nat) (calls : List Allocation) :
    doubleCapacity needed (rounds + 1) newcap calls = (.ok newcap, calls) := by
  rw [doubleCapacity, if_neg (Nat.not_le_of_lt enough)]
  rfl

/-- The growth step makes room and keeps what was collected. -/
theorem growBuffer_outcome {need : Nat} (collected : Collected texts buffer)
    (small : need ≤ 19) :
    MacsOutcome
      (fun grown => Collected texts grown ∧ grown.len = buffer.len ∧
        buffer.len + need < grown.cap)
      calls (growBuffer allocator buffer need calls) := by
  have inside := collected.len_lt
  have bounded := collected.bounded
  have least := collected.least
  have limit : PTRDIFF_MAX = 9223372036854775807 := rfl
  have needed : sizeT (buffer.len + need) = buffer.len + need :=
    sizeT_of_lt (by omega)
  have doubled : sizeT (buffer.cap * 2) = buffer.cap * 2 := sizeT_of_lt (by omega)
  rw [growBuffer, needed, doubled]
  by_cases full : buffer.len + need ≥ buffer.cap
  · rw [if_pos full, bind_of_ok (doubleCapacity_of_lt (by omega) 64 calls),
      bind_of_ok (allocate_apply allocator _ calls)]
    cases answered : allocator.answer calls.length (buffer.cap * 2) with
    | none =>
        apply MacsOutcome.gaveUp
        rw [allGranted_cons]
        exact fun all => Bool.false_ne_true all.1
    | some fresh =>
        have fits : buffer.cap * 2 ≤ PTRDIFF_MAX := by
          by_contra huge
          rw [allocator.bounded _ _ (by omega)] at answered
          cases answered
        apply MacsOutcome.continues
        · rw [allGranted_cons]
          exact (and_iff_right rfl).symm
        · have larger : 128 ≤ buffer.cap * 2 := by omega
          refine ⟨⟨rfl, larger, fits, collected.counted, ?_, collected.lengths⟩, rfl, ?_⟩
          · apply collected.holds.resize
            rw [← collected.sized]
            omega
          · exact (by omega : buffer.len + need < buffer.cap * 2)
  · rw [if_neg full]
    exact .continues Iff.rfl ⟨collected, rfl, Nat.lt_of_not_le full⟩

theorem checked_some (block : MemoryBlock) (calls : List Allocation) :
    checked (some block) calls = (.ok block, calls) :=
  rfl

/-- A text is not empty, so the length tells whether there is one. -/
theorem Collected.len_pos_iff (collected : Collected texts buffer) :
    buffer.len > 0 ↔ texts ≠ [] := by
  rw [collected.counted]
  cases isTexts : texts with
  | nil => simp [commaText]
  | cons text rest =>
      have long := collected.lengths text (by rw [isTexts]; exact List.mem_cons_self)
      have front : (commaText (text :: rest)).length ≥ text.length := by
        cases rest with
        | nil => exact Nat.le_of_eq (congrArg List.length List.intercalate_singleton.symm)
        | cons next rest =>
            rw [commaText, List.intercalate_cons_cons, List.length_append,
              List.length_append]
            omega
      refine ⟨fun _ => List.cons_ne_nil _ _, fun _ => ?_⟩
      omega

/-- The text in front of the next address. -/
def withComma (texts : List (List UInt8)) : List UInt8 :=
  commaText texts ++ if texts = [] then [] else [byteOfChar ',']

private theorem putComma_apply (collected : Collected texts buffer)
    (room : buffer.len + 19 ≤ buffer.cap) (calls : List Allocation) :
    ∃ after, putComma buffer calls = (.ok after, calls) ∧
      after.cap = buffer.cap ∧ after.buf.size = buffer.buf.size ∧
      after.len = (withComma texts).length ∧ after.buf.Holds (withComma texts) := by
  have bounded := collected.bounded
  have limit : PTRDIFF_MAX = 9223372036854775807 := rfl
  have sized := collected.sized
  have counted := collected.counted
  have holds := collected.holds.of_append
  by_cases empty : texts = []
  · have zero : ¬ buffer.len > 0 := by
      rw [collected.len_pos_iff]
      exact fun nonempty => nonempty empty
    have plain : withComma texts = commaText texts := by
      rw [withComma, if_pos empty, List.append_nil]
    rw [putComma, if_neg zero, plain]
    exact ⟨buffer, rfl, rfl, rfl, counted, holds⟩
  · have positive : buffer.len > 0 := collected.len_pos_iff.mpr empty
    have comma : withComma texts = commaText texts ++ [byteOfChar ','] := by
      rw [withComma, if_neg empty]
    obtain ⟨first, firstStored, firstSize, firstHolds⟩ :=
      @MemoryBlock.Holds.store _ _ (byteOfChar ',') holds (by omega)
    have length : (commaText texts ++ [byteOfChar ',']).length = buffer.len + 1 := by
      rw [List.length_append, List.length_singleton, counted]
    obtain ⟨second, secondStored, secondSize, secondHolds⟩ :=
      @MemoryBlock.Holds.store _ _ 0 firstHolds (by omega)
    have next : sizeT (buffer.len + 1) = buffer.len + 1 := sizeT_of_lt (by omega)
    rw [← counted] at firstStored
    rw [length] at secondStored
    refine ⟨{ buffer with buf := second, len := buffer.len + 1 }, ?_, rfl,
      secondSize.trans firstSize, ?_, ?_⟩
    · rw [putComma, if_pos positive, firstStored, bind_of_ok (checked_some first calls),
        next, secondStored, bind_of_ok (checked_some second calls)]
      rfl
    · rw [comma, length]
    · rw [comma]
      exact secondHolds.of_append

/-- The calls at the beginning matter only by whether they were all granted. -/
theorem MacsOutcome.of_iff {wanted : CsvBuffer → Prop} {earlier : List Allocation}
    {outcome : Except MacsFault (Option CsvBuffer) × List Allocation}
    (served : MacsOutcome wanted calls outcome)
    (same : AllGranted earlier ↔ AllGranted calls) : MacsOutcome wanted earlier outcome := by
  cases served with
  | continues sameLater isWanted => exact .continues (same.trans sameLater) isWanted
  | gaveUp refused => exact .gaveUp refused

theorem MacsOutcome.bind {wanted later : CsvBuffer → Prop} {first : MacsM (Option CsvBuffer)}
    {next : CsvBuffer → MacsM (Option CsvBuffer)}
    (served : MacsOutcome wanted calls (first calls))
    (goesOn : ∀ buffer reached, wanted buffer →
      MacsOutcome later reached (next buffer reached)) :
    MacsOutcome later calls
      ((first >>= fun result =>
        match result with
        | none => return none
        | some buffer => next buffer) calls) := by
  cases outcome : first calls with
  | mk result reached =>
      rw [outcome] at served
      cases served with
      | continues same isWanted =>
          rw [bind_of_ok outcome]
          exact (goesOn _ _ isWanted).of_iff same
      | gaveUp refused =>
          rw [bind_of_ok outcome]
          exact .gaveUp refused

/-- One address is appended, with its comma in front and a NUL behind it. -/
theorem appendMac_outcome {macstr : List UInt8} (collected : Collected texts buffer)
    (isMac : macstr.length = 17) :
    MacsOutcome (Collected (texts ++ [macstr])) calls
      (appendMac allocator buffer macstr calls) := by
  have small : macstr.length + 1 + (if buffer.len > 0 then 1 else 0) ≤ 19 := by
    split <;> omega
  apply (growBuffer_outcome collected small).bind
  intro grown reached isGrown
  obtain ⟨grownCollected, sameLength, room⟩ := isGrown
  have bounded := grownCollected.bounded
  have limit : PTRDIFF_MAX = 9223372036854775807 := rfl
  have sized := grownCollected.sized
  have enough : grown.len + 19 ≤ grown.cap := by
    have least := grownCollected.least
    split at room
    · omega
    · omega
  obtain ⟨after, puts, afterCap, afterSize, afterLen, afterHolds⟩ :=
    putComma_apply grownCollected enough reached
  have joined : withComma texts ++ macstr = commaText (texts ++ [macstr]) :=
    (commaText_concat texts macstr).symm
  have atMost : (withComma texts).length ≤ grown.len + 1 := by
    rw [withComma, List.length_append, grownCollected.counted]
    split <;> simp
  obtain ⟨final, stored, finalSize, finalHolds⟩ :=
    @MemoryBlock.Holds.storeAll _ _ (macstr ++ [0]) afterHolds (by
      rw [List.length_append, List.length_singleton]
      omega)
  rw [bind_of_ok puts, afterLen, stored, bind_of_ok (checked_some final reached)]
  apply MacsOutcome.continues Iff.rfl
  have length : sizeT ((withComma texts).length + macstr.length) =
      (commaText (texts ++ [macstr])).length := by
    rw [← joined, List.length_append]
    exact sizeT_of_lt (by omega)
  refine ⟨?_, ?_, ?_, length, ?_, ?_⟩
  · exact afterCap.trans (sized.trans (afterSize.symm.trans finalSize.symm))
  · exact afterCap ▸ grownCollected.least
  · exact afterCap ▸ bounded
  · rwa [← List.append_assoc, joined] at finalHolds
  · intro text member
    rcases List.mem_append.mp member with isOld | isNew
    · exact collected.lengths text isOld
    · rw [List.mem_singleton.mp isNew, isMac]

private theorem length_hardwareAddress {entry : Ifaddrs} (listed : isListed entry = true) :
    (hardwareAddress entry).length = 6 := by
  cases hasAddress : entry.ifaAddr with
  | none =>
      rw [isListed, hasAddress] at listed
      cases listed
  | some address =>
      rw [hardwareAddress, hasAddress]
      exact length_take_six address

/-- The loop appends the addresses that are listed, in order. -/
theorem appendMacs_outcome (entries : List Ifaddrs)
    (collected : Collected texts buffer) :
    MacsOutcome (Collected (texts ++ listedMacs entries)) calls
      (appendMacs allocator entries buffer calls) := by
  induction entries generalizing texts buffer calls with
  | nil =>
      apply MacsOutcome.continues Iff.rfl
      rw [listedMacs, List.filter_nil, List.map_nil, List.append_nil]
      exact collected
  | cons entry entries inductionHypothesis =>
      cases listed : isListed entry with
      | false =>
          have skipped : macText entry = none := by
            rw [macText_eq, listed]
            rfl
          have same : listedMacs (entry :: entries) = listedMacs entries := by
            rw [listedMacs, List.filter_cons_of_neg (by simp [listed]), listedMacs]
          rw [appendMacs, skipped, same]
          exact inductionHypothesis collected
      | true =>
          have shown : macText entry = some (colonText (hardwareAddress entry)) := by
            rw [macText_eq, listed]
            rfl
          have parts : texts ++ listedMacs (entry :: entries) =
              texts ++ [colonText (hardwareAddress entry)] ++ listedMacs entries := by
            rw [listedMacs, List.filter_cons_of_pos listed, List.map_cons,
              List.append_assoc]
            rfl
          rw [appendMacs, shown, parts]
          have isMac := length_colonText (length_hardwareAddress listed)
          apply (appendMac_outcome collected isMac).bind
          intro next reached isNext
          exact inductionHypothesis isNext

private theorem collected_nil (fresh : Nat → UInt8) :
    ∃ buf, MemoryBlock.store { size := 128, bytes := fresh } 0 0 = some buf ∧
      Collected [] { buf := buf, cap := 128, len := 0 } := by
  obtain ⟨buf, stored, size, holds⟩ :=
    @MemoryBlock.Holds.store _ _ 0
      (MemoryBlock.holds_nil { size := 128, bytes := fresh })
      (by decide : ([] : List UInt8).length < 128)
  have small : 128 ≤ PTRDIFF_MAX := by decide
  exact ⟨buf, stored, size.symm, Nat.le_refl _, small, rfl, holds,
    fun text member => absurd member List.not_mem_nil⟩

theorem Collected.cString_eq (collected : Collected texts buffer)
    (noNul : 0 ∉ commaText texts) :
    cString buffer.buf.contents = commaText texts := by
  obtain ⟨rest, contents⟩ := collected.holds.contents_eq
  rw [contents, List.append_assoc, cString, List.takeWhile_append_of_pos]
  · rw [List.singleton_append, List.takeWhile_cons_of_neg (by decide), List.append_nil]
  · intro byte member
    have nonzero : byte ≠ 0 := fun isNul => noNul (isNul ▸ member)
    simpa using nonzero

end Buffers

private theorem nul_notMem_listedMacs (entries : List Ifaddrs) :
    0 ∉ commaText (listedMacs entries) := by
  apply notMem_intercalate (by decide)
  intro text member
  obtain ⟨entry, _, rfl⟩ := List.mem_map.mp member
  exact nul_notMem_colonText _

/-- What is returned, when the calls that were made are known. -/
structure Returned (entries : List Ifaddrs) (result : Option MemoryBlock)
    (calls : List Allocation) : Prop where
  listed : AllGranted calls →
    result.map (fun block => cString block.contents) =
      if listedMacs entries = [] then none else some (commaText (listedMacs entries))
  refused : ¬ AllGranted calls → result = none

private theorem collectMacs_returned (allocator : Allocator) (entries : List Ifaddrs)
    (fresh : Nat → UInt8) :
    ∃ result calls,
      collectMacs allocator entries fresh [{ size := 128, granted := true }] =
        (.ok result, calls) ∧
      Returned entries result calls := by
  have start : AllGranted [{ size := 128, granted := true }] :=
    allGranted_cons.mpr ⟨rfl, fun _ member => absurd member List.not_mem_nil⟩
  obtain ⟨buf, stored, empty⟩ := collected_nil fresh
  have served := @appendMacs_outcome _ _ allocator
    [{ size := 128, granted := true }] entries empty
  rw [List.nil_append] at served
  rw [collectMacs, stored, bind_of_ok (checked_some buf _)]
  cases outcome : appendMacs allocator entries { buf := buf, cap := 128, len := 0 }
      [{ size := 128, granted := true }] with
  | mk result calls =>
      rw [outcome] at served
      cases served with
      | gaveUp refused =>
          rw [bind_of_ok outcome]
          exact ⟨none, calls, rfl, fun granted => absurd granted refused, fun _ => rfl⟩
      | @continues buffer _ same collected =>
          rw [bind_of_ok outcome]
          have granted := same.mp start
          have empty := collected.len_pos_iff
          by_cases isEmpty : listedMacs entries = []
          · have zero : buffer.len = 0 := by
              by_contra positive
              exact empty.mp (Nat.pos_of_ne_zero positive) isEmpty
            exact ⟨none, calls, by simp only [zero]; rfl,
              fun _ => by rw [if_pos isEmpty]; rfl, fun _ => rfl⟩
          · have positive : buffer.len ≠ 0 := Nat.ne_of_gt (empty.mpr isEmpty)
            refine ⟨some buffer.buf, calls, by simp only [positive]; rfl, fun _ => ?_,
              fun refused => absurd granted refused⟩
            rw [if_neg isEmpty]
            exact congrArg some (collected.cString_eq (nul_notMem_listedMacs entries))

/-- No write goes outside the block and the loop that doubles the capacity ends.
Unless memory is refused, the string is the list of addresses that are listed,
and there is none only if no address is. -/
theorem macsCsv_lists_addresses (allocator : Allocator) (entries : List Ifaddrs) :
    ∃ result calls,
      yaGetMacsCsv allocator (some entries) [] = (.ok result, calls) ∧
      (AllGranted calls →
        result.map (fun block => cString block.contents) =
          if listedMacs entries = [] then none
          else some (commaText (listedMacs entries))) ∧
      (¬ AllGranted calls → result = none) := by
  rw [yaGetMacsCsv, bind_of_ok (allocate_apply allocator 128 [])]
  cases answered : allocator.answer [].length 128 with
  | none =>
      refine ⟨none, _, rfl, fun granted => ?_, fun _ => rfl⟩
      exact absurd (allGranted_cons.mp granted).1 Bool.false_ne_true
  | some fresh =>
      obtain ⟨result, calls, returns, returned⟩ :=
        collectMacs_returned allocator entries fresh
      exact ⟨result, calls, returns, returned.listed, returned.refused⟩

/-- Memory that is zeroed, and enough of it. -/
def zeroingAllocator : Allocator where
  answer := fun _ size => if PTRDIFF_MAX < size then none else some fun _ => 0
  bounded := fun _ _ huge => if_pos huge

/-- A loopback interface is skipped. -/
example :
    ((yaGetMacsCsv zeroingAllocator
      (some
        [{ ifaFlags := 8
           ifaAddr :=
             some
               { saFamily := 17, sllHalen := 6
                 sllAddr := #v[1, 0, 0, 0, 0, 0, 0, 0] } },
          { ifaFlags := 0
            ifaAddr :=
              some
                { saFamily := 17, sllHalen := 6
                  sllAddr := #v[2, 66, 172, 17, 0, 2, 0, 0] } }]) []).1.toOption.join.map
        fun block => cString block.contents) =
      some (colonText [2, 66, 172, 17, 0, 2]) := by
  decide +kernel

end MouseHero
