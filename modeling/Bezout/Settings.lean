import Bezout.ArgumentVector
import Bezout.Text.Numeral

/-!
Settings: named values of some kind with a default, in the order of their declaration. They can be
set, given on an argument vector, and taken down in a snapshot and restored from it
(`Settings.snapshot`, `Settings.restore`). A restored snapshot also decides the value that
settings of its names get when they are declared later. A registry holds the settings together with
snapshots under names, and does all this step by step (`Registry.step`, `Registry.run`).
-/
namespace Bezout

/-- The kinds of settings. -/
inductive SettingKind
  | flag | text | integer
  deriving DecidableEq

/-- The kind of the values of a setting. -/
def SettingKind.valueKind : SettingKind → Kind
  | flag => .boolean
  | text => .text
  | integer => .integer

/-- The setting kind with values of a kind, if there is one. -/
def SettingKind.ofKind? : Kind → Option SettingKind
  | .boolean => some flag
  | .text => some text
  | .integer => some integer
  | _ => none

/-- How a setting is declared. -/
structure Declaration where
  name : String
  kind : SettingKind
  default : Value
  description : Option String
  /-- What stands for the value in help texts. -/
  metavar : Option String

/-- A setting with its value. -/
structure Setting extends Declaration where
  value : Value

/-- The declared settings, and the values that decide over later defaults. -/
structure Settings where
  declared : List Setting
  overrides : NamedValues

/-- A text with underscores in place of dashes. -/
def underscored (s : String) : String := s.map fun c => if c = '-' then '_' else c

/-- A value as an integer: texts are read, and numbers lose their fraction. -/
def Value.toInteger (v : Value) : Except Fault Int :=
  match v with
  | .text s =>
    match Text.integer? s with
    | some n => .ok n
    | none => .error (.notInteger s)
  | v =>
    match v.number? with
    | some a => .ok (a.value.num.tdiv a.value.den)
    | none => .error .unsuitable

namespace Declaration

/-- The name of the option that sets it: a flag that is on by default is switched off. -/
def optionName (d : Declaration) : String :=
  if d.kind = .flag && d.default.isTrue then "no-" ++ d.name else d.name

/-- The help text of the option. The default of anything but a flag is part of it. -/
def help (d : Declaration) : Option String :=
  if d.kind = .flag then d.description
  else
    let shown := "default=" ++ d.default.literal
    match d.description with
    | none | some "" => some shown
    | some description => some s!"{description} ({shown})"

/-- What stands for the option's value in help texts; flags have none. -/
def shownMetavar (d : Declaration) : Option String :=
  if d.kind = .flag then none else d.metavar

/-- The option that sets it. Its value is stored under the name of the option without the dashes
    in front, and a name made of dashes leaves nothing. -/
def option (d : Declaration) : Except Fault OptionSpec :=
  let flag := "--" ++ d.optionName
  match flag.toList.dropWhile (· = '-') with
  | [] => .error (.namelessOption flag)
  | name =>
    let stored := underscored (String.ofList name)
    if d.kind = .flag then .ok ⟨[flag], stored, .setTrue, .boolean false⟩
    else .ok ⟨[flag], stored, .store, d.default⟩

/-- The value that named values give it. -/
def valueIn (d : Declaration) (values : NamedValues) : Except Fault Value :=
  match values.lookup (underscored d.optionName) with
  | none => .error .missingPart
  | some v =>
    let v := if d.kind = .flag && d.default.isTrue then .boolean (!v.isTrue) else v
    if d.kind = .integer then v.toInteger.map Value.integer else .ok v

end Declaration

namespace Setting

/-- The form that shows name, kind and value. -/
def literal (s : Setting) : String :=
  s!"Option({Text.quoted s.name}, {s.kind.valueKind.name}, {s.value.literal})"

/-- A setting is no condition; its value is. -/
def asCondition (s : Setting) : Except Fault Bool := .error (.settingAsCondition s.name)

end Setting

namespace Settings

/-- No settings, and no restored values. -/
def empty : Settings := ⟨[], []⟩

/-- Declares a setting. It starts with its default unless a restored value overrides it. -/
def declare (s : Settings) (d : Declaration) : Settings :=
  { s with declared := s.declared ++ [⟨d, (s.overrides.lookup d.name).getD d.default⟩] }

/-- Gives the setting at a place of the order of declaration a value. -/
def set (s : Settings) (place : Nat) (v : Value) : Settings :=
  { s with declared := s.declared.modify place fun setting => { setting with value := v } }

/-- The value of the first setting with a name. -/
def value? (s : Settings) (name : String) : Option Value :=
  (s.declared.find? (·.name = name)).map Setting.value

/-- The values of all settings by name; of several settings with one name the last counts. -/
def snapshot (s : Settings) : NamedValues :=
  s.declared.foldl (fun taken setting => NamedValues.store taken setting.name setting.value) []

/-- Gives the settings named in a snapshot their values, and settings declared later too. -/
def restore (s : Settings) (taken : NamedValues) : Settings where
  declared := s.declared.map fun setting =>
    { setting with value := (taken.lookup setting.name).getD setting.value }
  overrides := taken

/-- Adds the options of the settings to what an argument vector is read by. -/
def addOptions (s : Settings) (spec : ArgumentSpec) : Except Fault ArgumentSpec :=
  s.declared.foldlM (fun spec setting => do spec.addOption (← setting.option)) spec

/-- Gives settings their values one by one. The first that has none in `values` ends this: it and
    the settings behind it stay as they are. -/
def readFrom (values : NamedValues) : List Setting → List Setting × Option Fault
  | [] => ([], none)
  | setting :: rest =>
    match setting.valueIn values with
    | .error fault => (setting :: rest, some fault)
    | .ok v =>
      let (others, fault) := readFrom values rest
      ({ setting with value := v } :: others, fault)

/-- Gives the settings the values that were read from an argument vector. -/
def read (s : Settings) (values : NamedValues) : Settings × Option Fault :=
  let (declared, fault) := readFrom values s.declared
  ({ s with declared }, fault)

/-- Whether reports are shown. -/
def verbose : Declaration :=
  ⟨"verbose", .flag, .boolean false, "Log every division and GCD step", none⟩

/-- Where the profile is written. -/
def profilePath : Declaration :=
  ⟨"profile-path", .text, .text "/tmp/polydiv.profile", none, "PATH"⟩

/-- How long a certificate may be looked for. Certificates are decided at once here, so no limit is
    ever reached. -/
def solverTimeout : Declaration :=
  ⟨"solver-timeout", .integer, .integer 10000, "Z3 timeout in milliseconds; 0 disables it", "MS"⟩

/-- Whether the profile is written. -/
def profile : Declaration :=
  ⟨"profile", .flag, .boolean false, "Write task timings to --profile-path when done", none⟩

/-- The settings that every session has. -/
def builtin : Settings := [verbose, profilePath, solverTimeout, profile].foldl declare empty

end Settings

/-! ### Settings at work -/

/-- Settings, and the snapshots that were taken of them under names, the latest first. -/
structure Registry where
  settings : Settings
  snapshots : List (String × NamedValues)

/-- Where the values that are restored come from. -/
inductive RestoredFrom
  /-- The latest snapshot with a name. -/
  | snapshot (name : String)
  | values (taken : NamedValues)

/-- What is done with settings. -/
inductive SettingsStep
  | declare (d : Declaration)
  /-- Gives the setting at a place of the order of declaration a value. -/
  | set (place : Nat) (v : Value)
  | read (values : NamedValues)
  | snapshot (name : String)
  | restore (source : RestoredFrom)

namespace Registry

/-- The values that are restored, unless no snapshot has the name. -/
def valuesFrom? (r : Registry) : RestoredFrom → Option NamedValues
  | .snapshot name => r.snapshots.lookup name
  | .values taken => some taken

/-- Does a step. A fault leaves what was done before it. -/
def step (r : Registry) : SettingsStep → Registry × Option Fault
  | .declare d => ({ r with settings := r.settings.declare d }, none)
  | .set place v => ({ r with settings := r.settings.set place v }, none)
  | .read values =>
    let (settings, fault) := r.settings.read values
    ({ r with settings }, fault)
  | .snapshot name => ({ r with snapshots := (name, r.settings.snapshot) :: r.snapshots }, none)
  | .restore source =>
    match r.valuesFrom? source with
    | some taken => ({ r with settings := r.settings.restore taken }, none)
    | none => (r, some .missingPart)

/-- Does several steps. A fault of one does not keep the later ones from being done. -/
def run (r : Registry) : List SettingsStep → Registry
  | [] => r
  | first :: later => run (r.step first).1 later

end Registry

end Bezout
