import KotlinDecl.Directory
import KotlinDecl.Edit
import KotlinDecl.Value

namespace KotlinDecl

inductive Handler
  | silent
  | console (level : Int)
  | file (path : String) (level : Int)
  deriving DecidableEq, Repr

namespace Handler

def level : Handler → Int
  | silent => 0
  | console level => level
  | file _ level => level

end Handler

structure Log where
  directory : Directory := {}
  preset : Option String := none
  handlers : List Handler := [.silent]
  level : Int := 0
  propagate : Bool := true
  deriving Repr

namespace Log

def packageName : String := "declgen"

/-- The name of a logger: names outside the package are put below it. -/
def loggerName (name : String) : String :=
  if name = packageName || (packageName ++ ".").toList.isPrefixOf name.toList then name
  else packageName ++ "." ++ name

def levels : List (String × Int) :=
  [("CRITICAL", 50), ("FATAL", 50), ("ERROR", 40), ("WARN", 30), ("WARNING", 30), ("INFO", 20),
    ("DEBUG", 10), ("NOTSET", 0)]

def levelName (level : Int) : String :=
  if level = 50 then "CRITICAL"
  else if level = 40 then "ERROR"
  else if level = 30 then "WARNING"
  else if level = 20 then "INFO"
  else if level = 10 then "DEBUG"
  else if level = 0 then "NOTSET"
  else "Level " ++ toString level

def infoLevel : Int := 20

def debugLevel : Int := 10

def outerLevel : Int := 30

/-- Capital letters, also for the dotless i and the long s, whose capitals are plain ones. -/
def capital (c : Char) : Char :=
  if c = 'ı' then 'I' else if c = 'ſ' then 'S' else c.toUpper

def levelOf (name : String) : Int :=
  (levels.lookup (String.ofList (name.toList.map capital))).getD infoLevel

def effectiveLevel (log : Log) : Int := if log.level = 0 then outerLevel else log.level

/-- Sends records of a level and above to the console, and to a file if one is given. Handlers
set up before are replaced. -/
def setup (level : Value) (file : Option String) : Edit Log Unit := do
  let log ← get
  let level ← Edit.require <|
    match level with
    | .null => .ok (levelOf (log.preset.getD "INFO"))
    | .str name => .ok (levelOf name)
    | _ => .error .lacking
  let (handlers, directory) ←
    match file.filter fun path => !path.isEmpty with
    | none => pure ([.console level], log.directory)
    | some path =>
      if log.directory.hasFolderOf path then
        pure ([.console level, .file path level], log.directory.append path "")
      else throw .noSuchFile
  set { log with handlers, directory, level, propagate := false }

def setPreset (value : Option String) : Edit Log Unit :=
  modify fun log => { log with preset := value }

def line (name : String) (level : Int) (message : String) : String :=
  loggerName name ++ " - " ++ levelName level ++ " - " ++ message ++ "\n"

def record (name : String) (level : Int) (message : String) : Edit Log String := do
  let log ← get
  if level < log.effectiveLevel then return ""
  let taking := log.handlers.filter fun h => h.level ≤ level
  let text := line name level message
  let directory := taking.foldl
    (fun d h =>
      match h with
      | .file path _ => d.append path text
      | _ => d) log.directory
  set { log with directory }
  return String.join (taking.map fun h =>
    match h with
    | .console _ => text
    | _ => "")

def recordBuilds : List String → Edit Log String
  | [] => return ""
  | message :: rest => do
    let here ← record "declgen.codegen.type_spec" debugLevel message
    return here ++ (← recordBuilds rest)

def read (file : String) : Edit Log String := do
  Edit.require (((← get).directory.read? file).elim (.error .noSuchFile) .ok)

end Log

end KotlinDecl
