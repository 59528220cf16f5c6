import SimpleRsyncd.Config.Document
import SimpleRsyncd.Config.Ini
import SimpleRsyncd.FileSystem.Basic

/-!
This module contains `Configuration::loadFromFile`, which picks one of the three loaders by the name
of the file, and the validation that comes after all of them.
-/

namespace SimpleRsyncd

/--
What a load depends on besides the `Configuration`: the file system, the environment, the libraries
and the clocks. A time that cannot be determined is `none`.
-/
structure Machine where
  fs : FileSystem
  canRead : Bytes → Bool := fun _ => true
  getenv : Bytes → Option Bytes := fun _ => none
  json : DocumentLibrary
  yaml : DocumentLibrary
  now : Time := 0
  lastWriteTime : Bytes → Option Time := fun _ => none

/--
What a load throws.
-/
inductive LoadError where
  | library (what : Bytes)
  | system (e : Errno)
  deriving DecidableEq

/--
A check that may throw, with the errors it has found so far.
-/
abbrev Check := ExceptT Errno (StateM (List Bytes))

namespace Check

def report (message : Bytes) : Check Bool := do
  modify (· ++ [message])
  return false

/--
Both checks are made, also if the first one fails.
-/
def both (check check' : Check Bool) : Check Bool := do
  let valid ← check
  let valid' ← check'
  return valid && valid'

end Check

namespace Configuration

section validate

variable (fs : FileSystem) (c : Configuration)

def existsCheck (p : Bytes) : Check Bool :=
  fs.exists p

def isDirectoryCheck (p : Bytes) : Check Bool :=
  fs.isDirectory p

def validateNetwork : Check Bool :=
  Check.both
    (if c.network.bindPort = 0 then Check.report (bytes "Invalid bind_port: 0") else pure true)
    (if c.network.maxConnections = 0 then
      Check.report (bytes "max_connections must be greater than 0")
    else
      pure true)

/--
A file that has to be given and to exist.
-/
def validateFile (file : Bytes) (missing notExist : String) : Check Bool := do
  if file.isEmpty then
    Check.report (bytes missing)
  else if !(← existsCheck fs file) then
    Check.report (bytes notExist ++ file)
  else
    return true

def validateSSL : Check Bool :=
  Check.both
    (validateFile fs c.ssl.certificateFile "SSL enabled but certificate_file not specified"
      "SSL certificate file does not exist: ")
    (validateFile fs c.ssl.privateKeyFile "SSL enabled but private_key_file not specified"
      "SSL private key file does not exist: ")

def validateAuth : Check Bool :=
  if c.auth.method = bytes "password" then
    validateFile fs c.auth.passwordFile "Password authentication enabled but password_file not specified"
      "Password file does not exist: "
  else
    pure true

/--
A path that does not exist is reported but does no harm.
-/
def validateModule (e : Bytes × ModuleConfig) : Check Bool := do
  let subject := bytes "Module '" ++ e.1
  let path := e.2.path
  if path.isEmpty then
    Check.report (subject ++ bytes "' has no path specified")
  else if !(← existsCheck fs path) then
    let _ ← Check.report (subject ++ bytes "' path does not exist: " ++ path)
    return true
  else if !(← isDirectoryCheck fs path) then
    Check.report (subject ++ bytes "' path is not a directory: " ++ path)
  else
    return true

def validateModules : Check Bool :=
  c.modules.entries.foldr (fun e check => Check.both (validateModule fs e) check) (pure true)

def check : Check Bool :=
  Check.both (validateNetwork c) <|
    Check.both (if c.ssl.enabled then validateSSL fs c else pure true) <|
      Check.both (if c.auth.enabled then validateAuth fs c else pure true) <|
        validateModules fs c

/--
The errors that are found replace the ones from before.
-/
def validate : Except Errno Bool × Configuration :=
  let (valid, errors) := StateT.run (ExceptT.run (check fs c)) []
  (valid, { c with errors })

end validate

variable (machine : Machine) (c : Configuration)

def pushError (message : Bytes) : Configuration :=
  { c with errors := c.errors ++ [message] }

def updateLastModified : Configuration :=
  let time :=
    if c.configFilePath.isEmpty then
      machine.now
    else
      (machine.lastWriteTime c.configFilePath).getD machine.now
  { c with lastModified := time, hasChanged := false }

/--
What all loaders do once the assignments are made.
-/
def finishLoad : Except LoadError Bool × Configuration :=
  match (c.updateLastModified machine).validate machine.fs with
  | (.error e, c) => (.error (.system e), c)
  | (.ok false, c) => (.ok false, c)
  | (.ok true, c) => (.ok true, { c with isValid := true, hasChanged := false })

def clearErrors : Configuration :=
  { c with errors := [], isValid := false }

def loadFromJSON (json : Bytes) : Except LoadError Bool × Configuration :=
  let c := c.clearErrors
  if json.isEmpty then
    (.ok false, c.pushError (bytes "Empty JSON configuration"))
  else
    match machine.json.parse json with
    | .error messages => (.ok false, c.pushError (bytes "Failed to parse JSON: " ++ messages))
    | .ok root =>
      match (machine.json.parseJSON root).run with
      | (.error what, assignments) => (.error (.library what), c.assign assignments)
      | (.ok (), assignments) => (c.assign assignments).finishLoad machine

/--
An exception of the YAML library is caught and reported.
-/
def loadFromYAML (yaml : Bytes) : Except LoadError Bool × Configuration :=
  let c := c.clearErrors
  let failed (c : Configuration) (what : Bytes) : Except LoadError Bool × Configuration :=
    (.ok false, c.pushError (bytes "Failed to parse YAML: " ++ what))
  if yaml.isEmpty then
    (.ok false, c.pushError (bytes "Empty YAML configuration"))
  else
    match machine.yaml.parse yaml with
    | .error what => failed c what
    | .ok root =>
      if machine.yaml.isNull root then
        (.ok false, c.pushError (bytes "Invalid YAML configuration"))
      else
        match (machine.yaml.parseYAML root).run with
        | (.error what, assignments) => failed (c.assign assignments) what
        | (.ok (), assignments) => (c.assign assignments).finishLoad machine

def loadFromIni (content : Bytes) : Except LoadError Bool × Configuration :=
  (c.assign (parseIni machine.getenv content)).finishLoad machine

def tolower (b : UInt8) : UInt8 :=
  if 65 ≤ b && b ≤ 90 then b + 32 else b

/--
The extension of a file name that decides about its format.
-/
def format (filename : Bytes) : Bytes :=
  (Path.extension filename).map tolower

/--
What an `std::ifstream` on the file contains, `none` if it cannot be opened. A directory can be opened
but not read.
-/
def openFile (filename : Bytes) : Option (Except Errno Bytes) :=
  if !machine.canRead filename then
    none
  else
    match machine.fs.read filename with
    | some content => some (.ok content)
    | none => if machine.fs.isDirectory filename = .ok true then some (.error .eisdir) else none

def loadFromFile (filename : Bytes) : Except LoadError Bool × Configuration :=
  let c := c.clearErrors
  match machine.fs.exists filename with
  | .error e => (.error (.system e), c)
  | .ok false => (.ok false, c.pushError (bytes "Configuration file does not exist: " ++ filename))
  | .ok true =>
    let c := { c with configFilePath := filename }
    match openFile machine filename with
    | none => (.ok false, c.pushError (bytes "Failed to open configuration file: " ++ filename))
    | some content =>
      if format filename = bytes ".json" then
        match content with
        | .error e => (.error (.system e), c)
        | .ok json => c.loadFromJSON machine json
      else if format filename = bytes ".yml" || format filename = bytes ".yaml" then
        match content with
        | .error e => (.error (.system e), c)
        | .ok yaml => c.loadFromYAML machine yaml
      else
        -- `std::getline` catches the exception and finds no line
        c.loadFromIni machine (content.toOption.getD [])

def reload : Except LoadError Bool × Configuration :=
  if c.configFilePath.isEmpty then (.ok false, c) else c.loadFromFile machine c.configFilePath

end Configuration
end SimpleRsyncd
