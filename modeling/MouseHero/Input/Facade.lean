import MouseHero.Input.Devices

/-!
# The input facade

`facade.c` for the uinput backend.
-/

namespace MouseHero

open FaultM

/-- `translate_backend_status`. -/
def translateBackendStatus (status : Int) : YAError :=
  if status = INPUT_BACKEND_OK then .success
  else if status = INPUT_BACKEND_ERROR_INVALID_PARAM then .invalidInput
  else .platformError

/-- `input_mouse_move`. -/
def inputMouseMove (dx dy : Int) : DeviceM YAError := do
  let result ← inputLinuxMouseMove dx dy
  return translateBackendStatus result

/-- `input_mouse_button`. -/
def inputMouseButton (button : CButton) (direction : CDirection) :
    DeviceM YAError := do
  let result ←
    match direction with
    | .press => inputLinuxMousePress button
    | .release => inputLinuxMouseRelease button
    | .click => inputLinuxMouseClick button
  return translateBackendStatus result

/-- `map_scroll_dir_to_backend`. -/
def mapScrollDirToBackend (dir : Int) : Option ScrollDirection :=
  match dir with
  | 0 => some .up
  | 1 => some .down
  | 2 => some .left
  | 3 => some .right
  | _ => none

/-- `input_mouse_scroll`. -/
def inputMouseScroll (amount dir : Int) : DeviceM YAError :=
  if amount ≤ 0 then
    return .invalidInput
  else
    match mapScrollDirToBackend dir with
    | none => return .invalidInput
    | some direction => do
        let result ← inputLinuxMouseScroll direction amount
        return translateBackendStatus result

/-- `input_key_action`. -/
def inputKeyAction (key : CKey) (direction : CDirection) :
    DeviceM YAError := do
  let result ← inputLinuxKeyAction key direction
  return translateBackendStatus result

theorem translateBackendStatus_eq_success_iff {status : Int} :
    translateBackendStatus status = .success ↔ status = INPUT_BACKEND_OK := by
  unfold translateBackendStatus
  split
  · rename_i isOk
    exact iff_of_true rfl isOk
  · rename_i failed
    refine iff_of_false ?_ failed
    split <;> exact fun same => by cases same

theorem inputKeyAction_eq (key : CKey) (direction : CDirection)
    (devices : Devices) :
    inputKeyAction key direction devices =
      (.ok (translateBackendStatus (devices.platform.backendStatus
          (.keyAction key direction :: devices.trace))),
        { devices with trace := .keyAction key direction :: devices.trace }) :=
  rfl

/-! ## Traces -/

theorem inputMouseButton_grows (button : CButton) (direction : CDirection) :
    Respects Devices.Grows (inputMouseButton button direction) := by
  cases direction <;>
    exact bind_grows (operate_grows _ _) fun _ => pure_extends _

theorem inputMouseButton_extends (button : CButton) (direction : CDirection) :
    Respects Devices.Extends (inputMouseButton button direction) :=
  fun devices => (inputMouseButton_grows button direction devices).extends

theorem inputKeyAction_grows (key : CKey) (direction : CDirection) :
    Respects Devices.Grows (inputKeyAction key direction) :=
  bind_grows (operate_grows _ _) fun _ => pure_extends _

theorem inputKeyAction_extends (key : CKey) (direction : CDirection) :
    Respects Devices.Extends (inputKeyAction key direction) :=
  fun devices => (inputKeyAction_grows key direction devices).extends

/-- Scrolling is an operation for a positive amount in a known direction, and
nothing otherwise. -/
theorem inputMouseScroll_grows {amount dir : Int}
    {direction : ScrollDirection} (positive : 0 < amount)
    (known : mapScrollDirToBackend dir = some direction) :
    Respects Devices.Grows (inputMouseScroll amount dir) := by
  rw [inputMouseScroll, if_neg (by omega), known]
  exact bind_grows (operate_grows _ _) fun _ => pure_extends _

theorem inputMouseScroll_refused (amount : Int) {dir : Int}
    (unknown : mapScrollDirToBackend dir = none) :
    inputMouseScroll amount dir = pure .invalidInput := by
  rw [inputMouseScroll, unknown]
  exact ite_self _

end MouseHero
