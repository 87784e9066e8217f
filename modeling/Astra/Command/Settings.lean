import Astra.Command.Arguments
import Astra.Command.Disk
import Astra.Config.Reader
import Astra.Journal
import Astra.Paint.Policy
import Astra.Text.Utf8

/-!
# Settings

What a run is to do, from its arguments and a configuration file. The arguments win over the file.
A file that is refused is told apart from one that breaks the run.
-/

namespace Astra

structure Settings where
  script : Option Path
  colorize : Bool
  seed : Option Seed
  colors : Overrides
  verbose : Bool

inductive Refusal where
  | missing (path : Path)
  | malformed (path : Path) (complaint : List Char)
  /-- A value that is no truth value, as it is shown. -/
  | plain (shown : List Char)
  /-- A value that is no whole number, as it is shown. -/
  | seed (shown : List Char)
  | colors
  | override (fault : OverrideFault)

def Refusal.message : Refusal → List Char
  | missing path => "config file not found: ".toList ++ path.text
  | malformed path complaint => path.text ++ ": ".toList ++ complaint
  | plain shown => "'plain' must be true or false, got ".toList ++ shown
  | seed shown => "'seed' must be an integer, got ".toList ++ shown
  | colors => "'colors' must be a table of CATEGORY = color".toList
  | override fault => fault.message

/-- What breaks a run, so that it ends without an answer of its own. -/
inductive Breakdown where
  | undecodable (fault : Text.Utf8.Fault)
  | numeral (text : List Char) (fault : Text.Numeral.Fault)
  | access (path : Path) (fault : AccessFault)
  | tooDeep (complaint : List Char)
  | write (fault : Text.WriteFault)
  | voidSeed

def Breakdown.message : Breakdown → List Char
  | undecodable fault => fault.message
  | numeral text fault => fault.message text
  | access path fault => fault.message path
  | tooDeep complaint => complaint
  | write fault => fault.message
  | voidSeed =>
    "The only supported seed types are: None,\nint, float, str, bytes, and bytearray.".toList

inductive SettingsFault where
  | refused (refusal : Refusal)
  | broken (breakdown : Breakdown)

namespace Settings

/-- The name of the configuration file that is looked for beside the script. -/
def configName : List Char := "axa.toml".toList

/-- The path that an argument names; an empty one names none. -/
def pathOf (argument : Option (List Char)) : Option Path :=
  (argument.filter (· ≠ [])).map Path.ofText

def namedConfig (request : Request) : Option Path := pathOf request.config

def configPath (request : Request) : Path :=
  (namedConfig request).getD
    (((pathOf request.script).map Path.parent |>.getD ⟨[], []⟩).child configName)

def readConfig (room : Config.Room) (path : Path) (bytes : List UInt8) :
    Except SettingsFault Config.Table :=
  match Text.Utf8.decode bytes with
  | .error fault => .error (.broken (.undecodable fault))
  | .ok text =>
    match Config.read room text with
    | .ok table => .ok table
    | .error (.malformed complaint) => .error (.refused (.malformed path complaint))
    | .error (.numeral digits fault) => .error (.broken (.numeral digits fault))
    | .error (.tooDeep complaint) => .error (.broken (.tooDeep complaint))

/-- The configuration that a request leads to, and the notes made on the way. A file that is looked
for without being named may be missing. -/
def loadConfig (room : Config.Room) (disk : Disk) (request : Request) :
    List Note × Except SettingsFault Config.Table :=
  let path := configPath request
  match disk path with
  | .ok bytes => ([.configLoading path.text], readConfig room path bytes)
  | .error fault =>
    if fault.meansAbsent then
      -- a file that was asked for by name has to be there
      match namedConfig request with
      | some _ => ([], .error (.refused (.missing path)))
      | none => ([], .ok [])
    else ([], .error (.broken (.access path fault)))

/-- The refusal of a value shows it, which breaks the run if it cannot be shown. -/
def refuse (room : Config.Room) (refusal : List Char → Refusal) (value : Config.Value) :
    SettingsFault :=
  match value.display room with
  | .ok shown => .refused (refusal shown)
  | .error .numeral => .broken (.write .numeral)
  | .error .tooDeep => .broken (.tooDeep
      "maximum recursion depth exceeded while getting the repr of an object".toList)

def plainOf (room : Config.Room) (table : Config.Table) : Except SettingsFault Bool :=
  match table.lookup "plain".toList with
  | none => .ok false
  | some (.flag plain) => .ok plain
  | some value => .error (refuse room .plain value)

def seedOf (room : Config.Room) (table : Config.Table) : Except SettingsFault (Option Seed) :=
  match table.lookup "seed".toList with
  | none => .ok none
  | some (.whole seed) => .ok (some (.number seed))
  | some value => .error (refuse room .seed value)

/-- What a configuration value offers as a color. -/
def candidate : Config.Value → Candidate
  | .text value => .text value
  | value => .other value.kind

/-- A color whose channels are not numerals breaks the run; any other bad color is refused. -/
def overrideFault : OverrideFault → SettingsFault
  | .color (.channel part fault) => .broken (.numeral part fault)
  | fault => .refused (.override fault)

def colorsOf (table : Config.Table) : Except SettingsFault Overrides :=
  match table.lookup "colors".toList with
  | none => .ok []
  | some (.table entries) =>
    (Overrides.read (entries.map fun entry => (entry.1, candidate entry.2))).mapError overrideFault
  | some _ => .error (.refused .colors)

def combine (room : Config.Room) (request : Request) (table : Config.Table) :
    Except SettingsFault Settings := do
  let plain ← plainOf room table
  let seed ← seedOf room table
  let colors ← colorsOf table
  return {
    script := pathOf request.script
    colorize := !(request.plain || plain)
    seed := request.seed.or seed
    colors
    verbose := request.verbose }

def resolve (room : Config.Room) (disk : Disk) (request : Request) :
    List Note × Except SettingsFault Settings :=
  let (notes, config) := loadConfig room disk request
  (notes, config.bind (combine room request))

end Settings

end Astra
