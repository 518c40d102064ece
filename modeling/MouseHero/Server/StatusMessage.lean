import MouseHero.Mpack.Values
import MouseHero.Server.Status

/-!
# The status as a value

The response of `handle_status` denotes one value, provided that its strings are
UTF-8: a map with the state, the listeners, the active clients and the path of
the log.
-/

namespace MouseHero

open MessagePack

variable {F : Type}

/-! ## Texts -/

/-- The bytes in front of the NUL are the text, which can be written. -/
structure SpellsText (bytes : List UInt8) (chars : List Char) : Prop where
  same : cString bytes = utf8 chars
  fits : (cString bytes).length < 2 ^ 32

/-- The texts that a status shows. -/
structure StatusTexts where
  session : List Char
  command : List Char
  http : List Char
  logPath : List Char
  peer : Int → List Char

/-- The strings that `handle_status` writes are these texts. -/
structure StatusContext.Shows (context : StatusContext) (manager : YaClientManager F)
    (texts : StatusTexts) : Prop where
  session : SpellsText (context.sessionAddr.getD []) texts.session
  command : SpellsText (context.commandAddr.getD []) texts.command
  http : SpellsText (context.httpAddr.getD []) texts.http
  logPath : SpellsText
    ((yaConfigGet context.config (some (literal "logger")) (some (literal "file"))).getD [])
    texts.logPath
  peer : ∀ client ∈ manager.activeClients,
    SpellsText (context.peerAddr client.fd) (texts.peer client.fd)

/-! ## The value -/

def textValue (text : String) : Value :=
  .text text.toList

/-- The value of the map of a client. -/
def clientValue (texts : StatusTexts) (client : YaClient F) : Value :=
  .map [(textValue "uid", .integer client.uid.toNat),
    (textValue "address", .text (texts.peer client.fd)),
    (textValue "connected_at", .integer (UInt64.ofInt client.connectedAt).toNat)]

/-- The pairs of a status. -/
def statusPairs (state : YaServerState) (texts : StatusTexts)
    (clients : List (YaClient F)) : List (Value × Value) :=
  [(textValue "server_status", textValue (yaServerStateToString state)),
    (textValue "listeners",
      .map [(textValue "session", .text texts.session),
        (textValue "command", .text texts.command),
        (textValue "http", .text texts.http)]),
    (textValue "connected_clients", .array (clients.map (clientValue texts))),
    (textValue "log_path", .text texts.logPath)]

/-! ## The encoding -/

section Encoding

variable {allowed : Number → Prop} {context : StatusContext} {texts : StatusTexts}
variable {manager : YaClientManager F}

private theorem map_ofNat_toNat_eq_utf8 {chars : List Char}
    (ascii : ∀ char ∈ chars, char.toNat < 128) :
    chars.map (fun char => UInt8.ofNat char.toNat) = utf8 chars := by
  induction chars with
  | nil => rfl
  | cons char chars inductionHypothesis =>
      obtain ⟨first, others⟩ := List.forall_mem_cons.mp ascii
      rw [List.map_cons, utf8_cons, utf8EncodeChar_ascii first,
        inductionHypothesis others]
      rfl

theorem mpackWriteLiteral_encodes (text : String)
    (ascii : (text.toList.all fun char => char.toNat.blt 128) = true)
    (fits : text.toList.length < 2 ^ 32) :
    Encodes allowed (textValue text) (mpackWriteLiteral text) := by
  have small : ∀ char ∈ text.toList, char.toNat < 128 := fun char member =>
    Nat.blt_eq.mp (List.all_eq_true.mp ascii char member)
  refine mpackWriteCstr_encodes (map_ofNat_toNat_eq_utf8 small) ?_
  rw [literal, List.length_map]
  exact fits

theorem mpackWriteOrEmpty_encodes {cstr : CString} {chars : List Char}
    (spells : SpellsText (cstr.getD []) chars) :
    Encodes allowed (.text chars) (mpackWriteOrEmpty cstr) :=
  mpackWriteCstr_encodes spells.same spells.fits

private theorem clientMap_encodes {client : YaClient F}
    (spells : SpellsText (context.peerAddr client.fd) (texts.peer client.fd))
    (uid : allowed (.integer client.uid.toNat))
    (time : allowed (.integer (UInt64.ofInt client.connectedAt).toNat)) :
    Encodes allowed (clientValue texts client) (clientMap context client) := by
  have pairs :=
    EncodesAll.pair (mpackWriteLiteral_encodes "uid" (by decide) (by decide))
      (mpackWriteU32_encodes client.uid uid)
    (EncodesAll.pair (mpackWriteLiteral_encodes "address" (by decide) (by decide))
      (mpackWriteCstr_encodes spells.same spells.fits)
    (EncodesAll.pair (mpackWriteLiteral_encodes "connected_at" (by decide) (by decide))
      (mpackWriteU64_encodes (UInt64.ofInt client.connectedAt) time) .noPairs))
  have whole := mpackStartMap_encodes pairs (by simp [textValue]) (by simp)
  rw [List.append_nil] at whole
  simp only [clientMap, List.append_assoc]
  exact whole

private theorem listeners_encodes (shows : context.Shows manager texts) :
    Encodes allowed
      (.map [(textValue "session", .text texts.session),
        (textValue "command", .text texts.command),
        (textValue "http", .text texts.http)])
      (mpackStartMap 3 ++
        (mpackWriteLiteral "session" ++ (mpackWriteOrEmpty context.sessionAddr ++
          (mpackWriteLiteral "command" ++ (mpackWriteOrEmpty context.commandAddr ++
            (mpackWriteLiteral "http" ++ mpackWriteOrEmpty context.httpAddr)))))) := by
  have session : Encodes allowed (.text texts.session)
      (mpackWriteOrEmpty context.sessionAddr) :=
    mpackWriteOrEmpty_encodes shows.session
  have pairs :=
    EncodesAll.pair (mpackWriteLiteral_encodes "session" (by decide) (by decide)) session
    (EncodesAll.pair (mpackWriteLiteral_encodes "command" (by decide) (by decide))
      (mpackWriteOrEmpty_encodes shows.command)
    (EncodesAll.pair (mpackWriteLiteral_encodes "http" (by decide) (by decide))
      (mpackWriteOrEmpty_encodes shows.http) .noPairs))
  have whole := mpackStartMap_encodes pairs (by simp [textValue]) (by simp)
  rw [List.append_nil] at whole
  exact whole

/-- The numbers of a client can be represented. -/
structure YaClient.Allowed (allowed : Number → Prop) (client : YaClient F) : Prop where
  uid : allowed (.integer client.uid.toNat)
  time : allowed (.integer (UInt64.ofInt client.connectedAt).toNat)

/-- The response of `handle_status` denotes the status. -/
theorem handleStatus_encodes (shows : context.Shows manager texts)
    (numbers : ∀ client ∈ manager.activeClients, client.Allowed allowed)
    (few : manager.activeClients.length < 2 ^ 32) :
    Encodes allowed (.map (statusPairs context.state texts manager.activeClients))
      (handleStatus context manager) := by
  have state : Encodes allowed (textValue (yaServerStateToString context.state))
      (mpackWriteLiteral (yaServerStateToString context.state)) := by
    cases context.state with
    | init => exact mpackWriteLiteral_encodes _ (by decide) (by decide)
    | running => exact mpackWriteLiteral_encodes _ (by decide) (by decide)
    | stopping => exact mpackWriteLiteral_encodes _ (by decide) (by decide)
    | stopped => exact mpackWriteLiteral_encodes _ (by decide) (by decide)
  have elements : EncodesAll allowed (manager.activeClients.map (clientValue texts))
      (manager.activeClients.map (clientMap context)).flatten :=
    encodesAll_map fun client member =>
      clientMap_encodes (shows.peer client member) (numbers client member).uid
        (numbers client member).time
  have clients := mpackStartArray_encodes elements (by rwa [List.length_map])
  rw [List.length_map] at clients
  have pairs :=
    EncodesAll.pair (mpackWriteLiteral_encodes "server_status" (by decide) (by decide))
      state
    (EncodesAll.pair (mpackWriteLiteral_encodes "listeners" (by decide) (by decide))
      (listeners_encodes shows)
    (EncodesAll.pair
      (mpackWriteLiteral_encodes "connected_clients" (by decide) (by decide)) clients
    (EncodesAll.pair (mpackWriteLiteral_encodes "log_path" (by decide) (by decide))
      (mpackWriteOrEmpty_encodes shows.logPath) .noPairs)))
  have whole := mpackStartMap_encodes pairs (by simp [textValue]) (by simp)
  rw [List.append_nil] at whole
  rw [handleStatus, yaClientGetCount_eq_length, clientMaps_eq]
  simp only [statusHead, statusTail, List.append_assoc] at whole ⊢
  exact whole

end Encoding

end MouseHero
