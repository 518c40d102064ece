import MouseHero.Server.World

/-!
# Handlers

`ya_server_handler.c`: a handler for each type of event, and the dispatcher
with its check of the command index.  `authorize` is the function of
`ya_authorize.c`.
-/

namespace MouseHero

open FaultM CFloat

variable {F : Type} [CFloat F]

/-- `ya_event_handler_t`. -/
abbrev HandlerFn (F : Type) :=
  Option BevId → YAEvent F → ServerM F (Option (YAEvent F))

/-- `assign_response`, with the parameters that the caller fills in. -/
def assignResponse (requestEvent : YAEvent F) (param : Option (YAParam F)) :
    YAEvent F where
  header := { requestEvent.header with direction := RESPONSE }
  param := param
  paramLen := (param.map YAParam.size).getD 0

/-! ## Connections -/

def CLIENT_IOS : UInt32 := 1

def CLIENT_ANDROID : UInt32 := 2

def OS_LINUX : UInt32 := 3

/-- `authorize`. -/
def authorize (param : YAAuthorizeEventRequest) : Bool :=
  1 ≤ param.version && (param.type = CLIENT_IOS || param.type = CLIENT_ANDROID)

/-- The parameters of the response to a client that is not authorized. -/
def refusedAuthorization (request : YAAuthorizeEventRequest) :
    YAAuthorizeEventResponse F where
  success := false
  osType := OS_LINUX
  uid := 0
  sessionPort := 0
  commandPort := 0
  macs := some []
  displayScale := constantf 1
  clientVersion := request.version

/-- The parameters of the response to an authorized client. -/
def grantedAuthorization (world : World F) (client : YaClient F)
    (request : YAAuthorizeEventRequest) : YAAuthorizeEventResponse F where
  success := true
  osType := OS_LINUX
  uid := client.uid
  sessionPort := world.sessionPort
  commandPort := world.commandPort
  macs := some (cString (world.macsCsv.getD []))
  displayScale := world.primaryScale
  clientVersion := request.version

/-- `handle_authorize`. -/
def handleAuthorize : HandlerFn F := fun bev event => do
  match event.param with
  | none => return none
  | some (.authorizeRequest request) =>
      if authorize request then
        let fd ← buffereventGetfd bev
        let world ← getState
        match yaClientFindByFd world.manager fd with
        | none =>
            match bev with
            | some bev =>
                buffereventFree bev
                return none
            | none => fault .nullDereference
        | some client =>
            writeClient client.addr fun entry =>
              { entry with
                bev
                protocolVersion := request.version
                mouseFilter := entry.mouseFilter.map fun filter =>
                  yaMouseFilterSetAlgorithmsEnabled filter true }
            let response := grantedAuthorization world client request
            return some (assignResponse event (some (.authorizeResponse response)))
      else
        let response := refusedAuthorization request
        return some (assignResponse event (some (.authorizeResponse response)))
  | some _ => fault .paramType

/-- `handle_session_option`. -/
def handleSessionOption : HandlerFn F := fun _ event => do
  match event.param with
  | none => return none
  | some param =>
      let world ← getState
      match yaClientFindByUid world.manager event.header.uid with
      | none => return none
      | some client =>
          match param with
          | .sessionOption request =>
              let scale :=
                if le request.pointerScale (constantf 0) then constantf 1
                else request.pointerScale
              writeClient client.addr fun entry =>
                { entry with
                  mouseFilter := entry.mouseFilter.map fun filter =>
                    yaMouseFilterSetPointerScale filter scale }
              return none
          | _ => fault .paramType

/-- `handle_heartbeat`. -/
def handleHeartbeat : HandlerFn F := fun _ event =>
  return some (assignResponse event none)

/-! ## The mouse -/

/-- The parameters that mouse events carry, unless they are missing or their
length is not that of the structure. -/
def commonRequest (event : YAEvent F) :
    ServerM F (Option YACommonEventRequest) :=
  match event.param with
  | none => return none
  | some param =>
      if event.paramLen ≠ 8 then
        return none
      else
        match param with
        | .common request => return some request
        | _ => fault .paramType

/-- The moves of the steps that are not zero. -/
def moveSteps : List YaMouseStep → DeviceM Unit
  | [] => return ()
  | step :: steps => do
      if step.dx = 0 ∧ step.dy = 0 then
        moveSteps steps
      else
        let _ ← inputMouseMove step.dx step.dy
        moveSteps steps

/-- A displacement that has left the throttle goes through the filter. -/
def moveFiltered (client : YaClient F) (outDx outDy : Int) :
    ServerM F Unit :=
  match client.mouseFilter with
  | some filter => do
      let (filter, steps) := yaMouseFilterProcess filter outDx outDy
      writeClient client.addr fun entry =>
        { entry with mouseFilter := some filter }
      onDevices (moveSteps steps)
  | none => onDevices (moveSteps [{ dx := outDx, dy := outDy }])

/-- The path of protocol version 3: accumulate fractions of pixels. -/
def moveSubpixels (client : YaClient F) (fdx fdy : F) : ServerM F Unit :=
  match client.mouseFilter with
  | none => return ()
  | some filter => do
      let (dx, fracX) := quantize (addf filter.fracX fdx)
      let (dy, fracY) := quantize (addf filter.fracY fdy)
      writeClient client.addr fun entry =>
        { entry with mouseFilter := some { filter with fracX, fracY } }
      onDevices (moveSteps [{ dx, dy }])

/-- The nearest whole number of pixels, halves away from zero. -/
def roundPixels (value : F) : Int :=
  toInt <|
    if le (constant 0) value then add value (constant (1 / 2))
    else sub value (constant (1 / 2))

/-- The path of protocol version 2: throttle whole pixels. -/
def moveThrottled (client : YaClient F) (fdx fdy : F) : ServerM F Unit := do
  let world ← getState
  let (throttle, emitted) :=
    yaMouseThrottleCollect F world.throttle (roundPixels fdx)
      (roundPixels fdy) false world.clock
  setThrottle throttle
  match emitted with
  | none => return ()
  | some (outDx, outDy) => moveFiltered client outDx outDy

/-- `handle_mouse_move`. -/
def handleMouseMove : HandlerFn F := fun _ event => do
  match ← commonRequest event with
  | none => return none
  | some request =>
      let world ← getState
      match yaClientFindByUid world.manager event.header.uid with
      | none => return none
      | some client =>
          let fdx : F := div (ofInt request.lparam.toInt) (constant 100)
          let fdy : F := div (ofInt request.rparam.toInt) (constant 100)
          if 3 ≤ client.protocolVersion then
            moveSubpixels client fdx fdy
            return none
          else
            moveThrottled client fdx fdy
            return none

/-- Reset the filter of a client. -/
def resetFilter (client : YaClient F) : ServerM F Unit :=
  writeClient client.addr fun entry =>
    { entry with mouseFilter := entry.mouseFilter.map yaMouseFilterResetState }

/-- Emit what the throttle holds. -/
def flushThrottle (client : YaClient F) : ServerM F Unit := do
  let world ← getState
  let (throttle, emitted) := yaMouseThrottleFlush world.throttle world.clock
  setThrottle throttle
  match emitted with
  | none => return ()
  | some (outDx, outDy) => moveFiltered client outDx outDy

/-- `handle_mouse_stop`. -/
def handleMouseStop : HandlerFn F := fun _ event => do
  let world ← getState
  match yaClientFindByUid world.manager event.header.uid with
  | none => return none
  | some client =>
      if 3 ≤ client.protocolVersion then
        resetFilter client
        return none
      else
        flushThrottle client
        resetFilter client
        let world ← getState
        setThrottle (yaMouseThrottleReset world.throttle)
        return none

/-- The button of a click. -/
def clickButton (lparam : Int32) : Option CButton :=
  if lparam = 0 then some .left
  else if lparam = 1 then some .right
  else if lparam = 2 then some .middle
  else none

/-- The direction of a click.  A double click is made of clicks. -/
def clickDirection (rparam : Int32) : Option CDirection :=
  if rparam = 0 then some .press
  else if rparam = 1 then some .release
  else if rparam = 2 then some .click
  else if rparam = 3 then some .click
  else none

/-- The button action of a click. -/
def clickMouse (button : CButton) (direction : CDirection) (double : Bool) :
    DeviceM YAError :=
  if double then do
    let err ← inputMouseButton button .click
    if err = .success then
      inputMouseButton button .click
    else
      return err
  else
    inputMouseButton button direction

/-- `handle_mouse_click`. -/
def handleMouseClick : HandlerFn F := fun _ event => do
  match ← commonRequest event with
  | none => return none
  | some request =>
      match clickButton request.lparam, clickDirection request.rparam with
      | some button, some direction =>
          let _ ← onDevices (clickMouse button direction (request.rparam = 3))
          return none
      | _, _ => return none

/-- `handle_mouse_scroll`. -/
def handleMouseScroll : HandlerFn F := fun _ event => do
  match ← commonRequest event with
  | none => return none
  | some request =>
      if request.lparam.toInt ≤ 0 then
        return none
      else
        let steps := min request.lparam.toInt 1000
        let _ ← onDevices (inputMouseScroll steps request.rparam.toInt)
        return none

/-! ## The keyboard -/

/-- The direction of a key. -/
def keyDirection (op : Int32) : Option CDirection :=
  if op = 0 then some .press
  else if op = 1 then some .release
  else if op = 2 then some .click
  else none

/-- The code is a character: printable ASCII, or Unicode below the codes of
the protocol. -/
def isChar (code : Int32) : Bool :=
  (0x20 ≤ code.toInt && code.toInt ≤ 0x7E) ||
    (0x80 ≤ code.toInt && code.toInt < 0xE000)

/-- `handle_keyboard`. -/
def handleKeyboard : HandlerFn F := fun _ event => do
  match event.param with
  | none => return none
  | some param =>
      if event.paramLen ≠ 12 then
        return none
      else
        match param with
        | .keyboard request =>
            match keyDirection request.op with
            | none => return none
            | some direction =>
                if isChar request.code then
                  let _ ← onDevices
                    (keyboardChar request.code request.mods direction)
                  return none
                else
                  match ckeyFromProtocol request.code with
                  | none => return none
                  | some key =>
                      let _ ← onDevices
                        (keyboardFunctionKey key request.mods direction)
                      return none
        | _ => fault .paramType

/-- `handle_input_text`: with the uinput backend the text is always pasted. -/
def handleInputText : HandlerFn F := fun _ event => do
  match event.param with
  | none => fault .nullDereference
  | some (.textInput request) =>
      let _ ← onDevices (clipboardPasteText request.text)
      return none
  | some _ => fault .paramType

/-- The part of `handle_input_get` that works on the devices: select all, copy,
deselect, and read the clipboard.  Nothing if one of the steps fails. -/
def copySelection : DeviceM CString := do
  let held ← inputKeyAction .control .press
  if held ≠ .success then
    return none
  else
    let selected ← keyActionWithCode 97 .click
    if selected ≠ .success then
      let _ ← inputKeyAction .control .release
      return none
    else
      let copied ← keyActionWithCode 99 .click
      if copied ≠ .success then
        let _ ← inputKeyAction .control .release
        return none
      else
        let released ← inputKeyAction .control .release
        if released ≠ .success then
          return none
        else
          let deselected ← mouseButton .left .click
          if deselected ≠ .success then
            return none
          else
            clipboardGet

/-- `handle_input_get`. -/
def handleInputGet : HandlerFn F := fun _ event => do
  match ← onDevices copySelection with
  | none => return none
  | some text =>
      return some (assignResponse event
        (some (.inputGet { text := some (cString text) })))

/-! ## Power -/

/-- The body shared by `handle_poweroff`, `handle_restart` and `handle_sleep`:
run the script, and the system's command if it fails. -/
def handlePower (script command : String) : HandlerFn F := fun _ event => do
  let ret ← onDevices (yaRunPowerScript script)
  if ret ≠ 0 then
    let _ ← onDevices (system command)
    return some (assignResponse event none)
  else
    return some (assignResponse event none)

def handlePoweroff : HandlerFn F :=
  handlePower "poweroff" "shutdown -h now"

def handleRestart : HandlerFn F :=
  handlePower "restart" "reboot"

def handleSleep : HandlerFn F :=
  handlePower "sleep" "systemctl suspend"

def CONTROL_OP_SHUTDOWN : Int32 := 1

def CONTROL_OP_RESTART : Int32 := 2

def CONTROL_OP_SLEEP : Int32 := 3

/-- `handle_control`. -/
def handleControl : HandlerFn F := fun bev event =>
  match event.param with
  | none => return none
  | some (.common request) =>
      if request.lparam = CONTROL_OP_SHUTDOWN then handlePoweroff bev event
      else if request.lparam = CONTROL_OP_RESTART then handleRestart bev event
      else if request.lparam = CONTROL_OP_SLEEP then handleSleep bev event
      else return some (assignResponse event none)
  | some _ => fault .paramType

/-! ## Discovery -/

/-- `handle_discover`. -/
def handleDiscover : HandlerFn F := fun _ event => do
  match event.param with
  | none => fault .nullDereference
  | some (.discoverRequest request) =>
      if request.magic ≠ DISCOVERY_MAGIC then
        return none
      else
        let world ← getState
        return some (assignResponse event
          (some (.discoverResponse
            { magic := DISCOVERY_MAGIC, port := world.sessionPort })))
  | some _ => fault .paramType

/-! ## The dispatcher -/

/-- The table `event_handlers`. -/
def eventHandler : YAEventType → HandlerFn F
  | .mouseMove => handleMouseMove
  | .mouseStop => handleMouseStop
  | .mouseClick => handleMouseClick
  | .mouseWheel => handleMouseScroll
  | .keyboard => handleKeyboard
  | .textInput => handleInputText
  | .textGet => handleInputGet
  | .discover => handleDiscover
  | .authorize => handleAuthorize
  | .heartbeat => handleHeartbeat
  | .sessionOption => handleSessionOption
  | .control => handleControl

/-- `find_event_handler`. -/
def findEventHandler (type : UInt32) : Option (HandlerFn F) :=
  (YAEventType.ofCode? type).map eventHandler

/-- `need_command_index_check`. -/
def needCommandIndexCheck (type : UInt32) : Bool :=
  type ≠ YAEventType.discover.code && type ≠ YAEventType.authorize.code &&
    type ≠ YAEventType.heartbeat.code

/-- The assignment of an index to the signed field. -/
def YaClient.withCommandIndex (index : UInt32) (client : YaClient F) :
    YaClient F :=
  { client with commandIndex := index.toInt32 }

/-- The check of the command index in `process_server_event`.  The stored
index is converted to an unsigned integer for the comparison. -/
def validateCommandIndex (client : Option ClientId) (event : YAEvent F) :
    ServerM F Bool :=
  match client with
  | none => return true
  | some client =>
      if event.header.direction = REQUEST ∧
          needCommandIndexCheck event.header.type then do
        let entry ← derefClient client
        if event.header.index ≤ entry.commandIndex.toUInt32 then
          return false
        else
          writeClient client (YaClient.withCommandIndex event.header.index)
          return true
      else
        return true

/-- `process_server_event`. -/
def processServerEvent (bev : Option BevId) (event : YAEvent F)
    (client : Option ClientId) : ServerM F (Option (YAEvent F)) :=
  match findEventHandler event.header.type with
  | none => do
      recordCall { bev, event, client, executed := false }
      return none
  | some handler => do
      let executed ← validateCommandIndex client event
      recordCall { bev, event, client, executed }
      if executed then handler bev event else return none

end MouseHero
