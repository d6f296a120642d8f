import ChargeLink.CentralSystem
import ChargeLink.CommandLine
import ChargeLink.Server.Basic
import ChargeLink.Time.Calendar
import Std.Time

/-!
# The program

The outer layer: it reads the settings, prints a check of them, or lets the
accepting central system talk to one charge point. The first line of the input is
the path of the charge point's request with the subprotocols it lists behind it,
every further line is a text; what the charge point gets is printed.
-/

namespace ChargeLink

/-- How the program is used. -/
def usage : String :=
  "Usage: ocpp-exchange [--config <CONFIG>] [--port <PORT>] [--log-level <LOG_LEVEL>] [--check]\n"

/-- What is kept at a path. -/
def storedAt (path : String) : IO StoredFile := do
  try
    return .bytes (← IO.FS.readBinFile path)
  catch
    | .noFileOrDirectory .. => return .missing
    | _ => return .directory

/-- The time. -/
def currentTime : IO Timestamp := do
  let now ← Std.Time.Timestamp.now
  return (Timestamp.ofSeconds? now.toSecondsSinceUnixEpoch.val).getD .epoch

/-- Prints what the charge point has got. -/
def printDelivered (ds : List Delivery) : IO Unit := do
  for d in ds do
    match d with
    | .text s => IO.println s
    | .pong _ => pure ()
    | .close => IO.println "closed"

/-- Gives the handlers of an open session the time. -/
def atTime (now : Timestamp) (n : Nat) (s : Server) : Server :=
  (s.onConnection n fun c => ((), c.onStation fun t =>
    { t with session := { t.session with
      registry := CentralSystem.registry now t.session.version } })).2

/-- Passes texts to the server until the input ends. -/
partial def converse (input : IO.FS.Stream) (n : Nat) (s : Server) : IO Unit := do
  let line ← input.getLine
  if line.isEmpty then
    printDelivered (s.receive n .close |>.takeDelivered n).1
  else
    let text := if line.endsWith "\n" then (line.dropEnd 1).toString else line
    let (ds, s) := ((atTime (← currentTime) n s).receive n (.text text)).takeDelivered n
    printDelivered ds
    converse input n s

/-- Lets the central system talk to one charge point. -/
def talk (settings : Settings) : IO UInt32 := do
  let input ← IO.getStdin
  let now ← currentTime
  let s := Version.all.foldl (fun s v => s.serve (CentralSystem.registry now v))
    (Server.create settings.session.sessionConfig)
  let request := (Text.trimmed (← input.getLine)).toList
  let path := request.takeWhile fun c => c != ' '
  let (h, n, s) := s.connect (String.ofList path) (some (String.ofList (request.drop path.length)))
  match n with
  | some n =>
    converse input n s
    return 0
  | none =>
    IO.eprintln (h.body?.getD "")
    return 1

/-- Does what the options ask for. -/
def obey (o : Options) : IO UInt32 := do
  let home := (← IO.getEnv "HOME").getD ""
  let path := o.config.getD (Settings.defaultPath home (← IO.getEnv "XDG_CONFIG_HOME"))
  let stored := Settings.ofFile (← storedAt path)
  match o.checked path stored with
  | .error f =>
    IO.eprintln ("Error: " ++ f.message?.getD "")
    return 1
  | .ok report =>
    if o.check then
      IO.print report
      return 0
    else talk (o.settings stored)

end ChargeLink

open ChargeLink in
/-- Reads the command line and does what it asks for. -/
def main (arguments : List String) : IO UInt32 := do
  match Command.ofArguments? arguments (← IO.getEnv "OCPP_CONFIG") with
  | none =>
    IO.eprint usage
    return 2
  | some .showVersion =>
    IO.print Command.versionText
    return 0
  | some .showHelp =>
    IO.print usage
    return 0
  | some (.run o) => obey o
