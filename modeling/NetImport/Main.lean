import NetImport.Command.Options
import NetImport.Json.Printer

/-!
# The command line program

Files are read ahead of a command, which then has them as values; a run is timed
as a whole.
-/

namespace NetImport
namespace Program

def fileError : IO.Error → FileError
  | .noFileOrDirectory .. => .notFound
  | .permissionDenied .. => .denied
  | .inappropriateType .. => .directory
  | error => .other (toString error)

def readFile (path : String) : IO (Except FileError (List UInt8)) := do
  try
    let bytes ← IO.FS.readBinFile path
    return .ok bytes.data.toList
  catch error => return .error (fileError error)

def readAhead (paths : List String) : IO FileReader := do
  let entries ← paths.mapM fun path => do return (path, ← readFile path)
  return fun path => (entries.lookup path).getD (.error .notFound)

def readConfigured (path : String) : IO FileReader := do
  match RunConfig.ofFile (← readAhead [path]) path with
  | .ok config => readAhead [path, config.predictNet, config.initNet]
  | .error _ => readAhead [path]

def finish : Except CommandError Unit → IO UInt32
  | .ok () => return 0
  | .error error => do
      IO.eprintln s!"Error: {error.message}"
      return 1

def inspect (inspection : Inspection) : IO UInt32 := do
  let read ← readAhead [inspection.predictNet, inspection.initNet]
  let (lines, result) := inspection.report read
  lines.forM fun line => IO.println line
  finish result

def run (config : String) (showMetrics : Bool) : IO UInt32 := do
  let read ← readConfigured config
  let start ← IO.monoNanosNow
  let (lines, result) := RunCommand.report read config
  lines.forM fun line => IO.println line
  let stop ← IO.monoNanosNow
  match result with
  | .error error => finish (.error error)
  | .ok metrics =>
      let metrics := metrics.finalise (stop - start)
      IO.println (RunCommand.closingLine metrics)
      if showMetrics then IO.println (Json.prettyText metrics.toJson)
      return 0

end Program
end NetImport

open NetImport in
def main (args : List String) : IO UInt32 := do
  match Command.ofArguments args with
  | .ok (.inspect inspection) => Program.inspect inspection
  | .ok (.run config showMetrics) => Program.run config showMetrics
  | .error error => do
      IO.eprintln s!"error: {error.message}"
      return 2
