import DataQuality.CommandLine.Files
import DataQuality.CommandLine.Help
import DataQuality.Connection.Target
import DataQuality.Document.Load
import DataQuality.Log
import DataQuality.Report.Json
import DataQuality.Report.Summary
import DataQuality.Scan.Basic

/-!
# Running commands

What the program does in a given environment, as data: the exit code, what it writes, and the files
it leaves. The exit code is that of the scan, and 2 if nothing came of the command.
-/

namespace DataQuality

/-- All that the program sees of the world. `document` gives the content of a file or why there is
none, `stored` what is found in the place of a database file, and `session` leads to an opened
warehouse. -/
structure Environment where
  document : String → Except String String
  stored : String → StoredFile
  session : Target → Session
  stamp : ScanStamp

/-- What the program writes: a message of its log, or text. -/
inductive Written where
  | log (level : LogLevel) (message : String)
  | text (s : String)
  deriving DecidableEq, Repr

/-- What the program did. -/
structure Outcome where
  code : Nat
  out : List Written
  err : String
  files : List (String × String)

/-- What came of a command: what it wrote, and its exit code or why it failed. -/
structure Attempt where
  out : List Written
  files : List (String × String)
  result : Except String Nat

/-- The exit code if nothing came of a command. -/
def fatalExitCode : Nat := 2

/-- An error with what lies beneath it. -/
def ScanError.chain (e : ScanError) : String :=
  match e.cause? with
  | some cause => e.message ++ ": " ++ cause
  | none => e.message

namespace Attempt

/-- An attempt that failed in a step, after what it wrote. -/
def failed (out : List Written) (step : String) (e : ScanError) : Attempt :=
  ⟨out, [], .error (step ++ ": " ++ e.chain)⟩

/-- The failure of a step in opening a warehouse. -/
def openingStep : String := "Failed to open warehouse connection"

/-- What a driver writes to the log about a setting that it passes over. -/
def passedOverLog (setting : String × String) : Written :=
  .log .warn
    ("ignoring unrecognized connect parameter key=" ++ setting.1 ++ " value=" ++ setting.2)

/-- What opening a warehouse writes to the log. -/
def openingLog (url : String) : List Written :=
  match Warehouse.ofUrl url with
  | .ok w =>
    .log .debug ("Opening warehouse connection warehouse=" ++ w.name ++ " url=" ++ redactUrl url) ::
      if w = .postgreSQL then (passedOver url).map passedOverLog else []
  | .error _ => []

/-- Opens the warehouse of a URL. -/
def openTarget (e : Environment) (url : String) : Except ScanError Target :=
  (Target.openUrl e.stored url).mapError TargetError.toScanError

/-- The query that tests a connection. It reads nothing that is stored. -/
def testQuery : String := "SELECT 1"

/-- Tests the connection to a warehouse. -/
def test (e : Environment) (url : String) : Attempt :=
  match Warehouse.ofUrl url with
  | .error error => ⟨[], [], .error error.toScanError.chain⟩
  | .ok w =>
    let out := Written.log .info ("Testing " ++ w.name ++ " connection to " ++ redactUrl url) ::
      openingLog url
    match openTarget e url with
    | .error error => failed out openingStep error
    | .ok target =>
      match (e.session target).answer [] testQuery with
      | .error error => failed out "Connection test failed" error
      | .ok _ =>
        ⟨out ++ [.text ("Connection to " ++ target.warehouse.name ++ " warehouse successful\n")],
          [], .ok 0⟩

/-- What is written about the result of a scan. -/
def reportOn (e : Environment) (request : ScanRequest) (r : ScanResult) : Attempt :=
  let json := (r.toJson e.stamp).pretty
  let saved := request.output.toList.map fun path ↦ Written.log .info ("Result written to " ++ path)
  { out := saved ++ [.text (if request.json then json ++ "\n" else r.summaryText)]
    files := request.output.toList.map fun path ↦ (path, json)
    result := .ok r.summary.exitCode }

/-- Scans a table with an opened warehouse. -/
def scanWith (e : Environment) (request : ScanRequest) (config : ScanConfiguration)
    (target : Target) : Attempt :=
  let scan := { Scan.ofConfiguration target.warehouse config with
    cap := request.maxAggregates.getD 0 }
  match (scan.run (e.session target)).2 with
  | .error error => failed [] "Scan failed" error
  | .ok r => reportOn e request r

/-- Runs the scan of a document. -/
def scan (e : Environment) (request : ScanRequest) : Attempt :=
  match ScanConfiguration.ofFile request.file (e.document request.file) with
  | .error error => failed [] ("Failed to load scan document " ++ request.file) error.toScanError
  | .ok config =>
    let out := Written.log .info ("Target: " ++ redactUrl request.url) :: openingLog request.url
    match openTarget e request.url with
    | .error error => failed out openingStep error
    | .ok target =>
      let attempt := scanWith e request config target
      { attempt with out := out ++ attempt.out }

/-- Tries a command. -/
def ofCommand (e : Environment) : Command → Attempt
  | .scan request => scan e request
  | .test url => test e url
  | .list => ⟨[.text (Help.text Help.warehouses)], [], .ok 0⟩

/-- What the program did in an attempt. Text is written at every level. -/
def outcome (level : LogLevel) (a : Attempt) : Outcome :=
  let shown (w : Written) : Bool := match w with
    | .log l _ => level.isShown l
    | .text _ => true
  match a.result with
  | .ok code => ⟨code, a.out.filter shown, "", a.files⟩
  | .error reason =>
    ⟨fatalExitCode, (a.out ++ [Written.log .error reason]).filter shown,
      "Error: " ++ reason ++ "\n", a.files⟩

end Attempt

/-- What the program does when asked for something, or when its arguments make no sense. -/
def Outcome.ofRequest (e : Environment) : Option Request → Outcome
  | none => ⟨fatalExitCode, [], Help.text ["error: invalid arguments", "", Help.usage none], []⟩
  | some .version => ⟨0, [.text Help.version], "", []⟩
  | some (.help topic inFull) => ⟨0, [.text (Help.text (Help.onTopic topic inFull))], "", []⟩
  | some (.invoke i) =>
    (Attempt.ofCommand e i.command).outcome (LogLevel.ofVerbosity i.verbose i.quiet)

/-- A level as wide as the widest. -/
def LogLevel.padded (level : LogLevel) : String :=
  String.ofList (List.replicate (5 - level.name.length) ' ') ++ level.name

/-- What is written, with a mark for the time in front of messages. -/
def Written.render (time : String) : Written → String
  | .log level message => time ++ " " ++ level.padded ++ " " ++ message ++ "\n"
  | .text s => s

/-- What a program without access to servers sees of a warehouse: an empty database or a file that
holds something else, and no answer from anywhere else. -/
def Session.offline (stored : String → StoredFile) (target : Target) : Session :=
  let answer (sql : String) : Except ScanError Rows :=
    match target.file with
    | none => .error (.connection "pool timed out while waiting for an open connection")
    | some d =>
      if sql ≠ Attempt.testQuery ∧ !d.needsNoFile ∧ stored d.name = .foreign then
        .error (.queryExecution
          ("error returned from database: " ++
            OpenError.databaseText 26 "file is not a database"))
      else .ok ⟨[], []⟩
  ⟨fun _ ↦ answer, none⟩

/-- The world of a program that has files and no access to servers. -/
def Environment.ofFiles (files : Files) : Environment :=
  let stored (name : String) : StoredFile :=
    match files.find name with
    | .file content => .ofBytes content.toUTF8.toList
    | .directory => .directory
    | .belowFile | .missing => .missing
  { document := fun path ↦ (files.find path).content
    stored
    session := Session.offline stored
    stamp := .zero }

end DataQuality
