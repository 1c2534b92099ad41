import MetricUnits.Program

/-! Command line: requests on standard input, one a line, and responses on standard output. -/
namespace MetricUnits.Main

partial def nextLine (stream : IO.FS.Stream) (before : List UInt8) : IO (Option (List UInt8)) := do
  let byte := (← stream.read 1).toList
  match byte with
  | [] => return if before.isEmpty then none else some before.reverse
  | b :: _ => if b = 10 then return some before.reverse else nextLine stream (b :: before)

partial def serve (config : Config) (stdin stdout : IO.FS.Stream) : IO PUnit := do
  match ← nextLine stdin [] with
  | none => return
  | some line =>
      match Program.reply config line with
      | .stop => return
      | .nothing => serve config stdin stdout
      | .text s =>
          stdout.putStr s
          stdout.flush
          serve config stdin stdout

end MetricUnits.Main

def main : IO PUnit := do
  let config := MetricUnits.Config.ofValues
    (← IO.getEnv MetricUnits.Config.logVariable) (← IO.getEnv MetricUnits.Config.prettyVariable)
  MetricUnits.Main.serve config (← IO.getStdin) (← IO.getStdout)
