import Gait.Files
import Gait.Report
import Gait.SelectPolicy
import Gait.Text.Blank
import Gait.Toml

/-!
# Settings

The settings of the program, read from a TOML document.  Every section and every field may be
missing; unknown ones are ignored.  `Settings.read?` checks the kinds of values, `Settings.check`
their bounds.
-/

namespace Gait

/-- How the controller boards are reached. -/
structure SerialSettings where
  device : Option String := none
  baud : Nat := 9600
  /-- How long to wait for a reply, in milliseconds. -/
  timeout : Nat := 10
  deriving DecidableEq, Repr

/-- Where walk files are and how they are played. -/
structure WalkerSettings where
  directory : String := "walkfiles"
  /-- The extension of walk files, without the dot. -/
  extension : String := "walk"
  /-- The pause after each byte, in microseconds. -/
  guard : Nat := 50
  /-- The pause while no step is due, in milliseconds. -/
  idlePoll : Nat := 1
  policy : SelectPolicy := .replace
  deriving DecidableEq, Repr

/-- Where the log goes and what goes into it. -/
structure LoggingSettings where
  file : Option String := none
  level : Option String := none
  rotation : Option String := none
  deriving DecidableEq, Repr

/-- All sections. -/
structure Settings where
  serial : SerialSettings := {}
  walker : WalkerSettings := {}
  logging : LoggingSettings := {}
  deriving DecidableEq, Repr

namespace Settings

/-! ## Reading -/

/-- The field of a section at a position and under a name.  A section is a table, or a list in
the order of its fields.  A point in time stands for a section without fields. -/
def field? (section_ : Toml.Value) (position : Nat) (name : String) : Option Toml.Value :=
  match section_ with
  | .table _ entries => entries.lookup name
  | .array items | .tables items => items[position]?
  | _ => none

/-- Whether a value may stand for a section. -/
def isSection : Toml.Value → Bool
  | .table .. | .array _ | .tables _ | .datetime _ => true
  | _ => false

/-- The text in a value. -/
def text? : Toml.Value → Option String
  | .string s => some s
  | _ => none

/-- The number in a value, from zero to a largest one. -/
def number? (largest : Nat) : Toml.Value → Option Nat
  | .integer i => if 0 ≤ i ∧ i ≤ largest then some i.toNat else none
  | _ => none

/-- Whether a value is a table or a list with nothing in it. -/
def isEmpty : Toml.Value → Bool
  | .table _ entries => entries.isEmpty
  | .array items | .tables items => items.isEmpty
  | _ => false

/-- The policy in a value: its word, or its word as the only key of a table, with nothing in it. -/
def policy? : Toml.Value → Option SelectPolicy
  | .string s => SelectPolicy.ofText? s
  | .table _ [(key, content)] => if isEmpty content then SelectPolicy.ofText? key else none
  | _ => none

/-- A field of a section, or its default if it is missing. -/
def fieldOr {α : Type} (section_ : Toml.Value) (position : Nat) (name : String) (default : α)
    (convert : Toml.Value → Option α) : Option α :=
  match field? section_ position name with
  | none => some default
  | some v => convert v

/-- A text in a section that may be missing. -/
def optionalText (section_ : Toml.Value) (position : Nat) (name : String) : Option (Option String) :=
  fieldOr section_ position name none fun v => (text? v).map some

/-- Read the section of the serial line. -/
def readSerial (s : Toml.Value) : Option SerialSettings := do
  return {
    device := ← optionalText s 0 "device"
    baud := ← fieldOr s 1 "baud" 9600 (number? 0xffffffff)
    timeout := ← fieldOr s 2 "timeout_ms" 10 (number? countMax) }

/-- Read the section of the walker. -/
def readWalker (s : Toml.Value) : Option WalkerSettings := do
  return {
    directory := ← fieldOr s 0 "walk_dir" "walkfiles" text?
    extension := ← fieldOr s 1 "extension" "walk" text?
    guard := ← fieldOr s 2 "guard_us" 50 (number? countMax)
    idlePoll := ← fieldOr s 3 "idle_poll_ms" 1 (number? countMax)
    policy := ← fieldOr s 4 "select_policy" .replace policy? }

/-- Read the section of the log. -/
def readLogging (s : Toml.Value) : Option LoggingSettings := do
  return {
    file := ← optionalText s 0 "file"
    level := ← optionalText s 1 "level"
    rotation := ← optionalText s 2 "rotation" }

/-- A section of a document, or its default if it is missing. -/
def sectionOr {α : Type} (entries : Toml.Entries) (name : String) (default : α)
    (convert : Toml.Value → Option α) : Option α :=
  match entries.lookup name with
  | none => some default
  | some v => if isSection v then convert v else none

/-- The settings of a document, if it is TOML and its values are of the right kinds. -/
def read? (text : String) : Option Settings := do
  let entries ← Toml.read? text
  return {
    serial := ← sectionOr entries "serial" {} readSerial
    walker := ← sectionOr entries "walker" {} readWalker
    logging := ← sectionOr entries "logging" {} readLogging }

/-! ## Checking -/

/-- The reasons against settings of the right kinds. -/
inductive Invalid where
  | emptyDevice
  | zeroBaud
  | longTimeout
  | extension
  | longGuard
  | zeroIdlePoll
  | longIdlePoll
  | rotation
  deriving DecidableEq, Repr

/-- A reason in words, with the name of the field. -/
def Invalid.message : Invalid → String
  | emptyDevice => "serial.device must not be empty when set"
  | zeroBaud => "serial.baud must be > 0"
  | longTimeout => "serial.timeout_ms is unreasonably large (>60s)"
  | extension => "walker.extension must be a bare extension such as \"walk\""
  | longGuard => "walker.guard_us must be <= 10000"
  | zeroIdlePoll => "walker.idle_poll_ms must be >= 1"
  | longIdlePoll => "walker.idle_poll_ms must be <= 1000"
  | rotation => "logging.rotation must be one of never, daily, hourly"

/-- The words for the rotation of the log file. -/
def rotations : List String := ["never", "daily", "hourly"]

/-- The first reason against settings, if there is any. -/
def firstInvalid? (s : Settings) : Option Invalid :=
  let extension := s.walker.extension.toList
  if s.serial.device.any fun d => (Text.trim d.toList).isEmpty then some .emptyDevice
  else if s.serial.baud = 0 then some .zeroBaud
  else if 60000 < s.serial.timeout then some .longTimeout
  else if extension.isEmpty || extension.any fun c => c == '.' || c == '/' then some .extension
  else if 10000 < s.walker.guard then some .longGuard
  else if s.walker.idlePoll = 0 then some .zeroIdlePoll
  else if 1000 < s.walker.idlePoll then some .longIdlePoll
  else if s.logging.rotation.any fun r => !rotations.contains r then some .rotation
  else none

/-- The settings, if nothing speaks against them. -/
def check (s : Settings) : Except Invalid Settings :=
  match s.firstInvalid? with
  | some i => .error i
  | none => .ok s

/-! ## Loading -/

/-- The reasons why settings cannot be loaded. -/
inductive LoadError where
  | file (path : String) (error : FileError)
  | document (path : String)
  | invalid (reason : Invalid)
  deriving DecidableEq, Repr

/-- A reason in words, with the path of the file unless a field is to blame. -/
def LoadError.message : LoadError → String
  | file path error => s!"reading config {path}: {error.message}"
  | document path => s!"parsing config {path}"
  | invalid reason => reason.message

/-- Read the settings file at a path and check it. -/
def load {m : Type → Type} [Monad m] [Files m] (path : String) : m (Except LoadError Settings) := do
  match ← Files.readText path with
  | .error e => return .error (.file path e)
  | .ok text =>
    match read? text with
    | none => return .error (.document path)
    | some s => return s.check.mapError .invalid

end Settings

end Gait
