import PolicyAttachment.Controller

/-!
# The program

Runs one instance of the controller on the command line it is given. The cluster is described by a
document on one line of standard input, whose member `now` is the time the clock shows; the name of
the instance is taken from the environment. All requests of the instance are printed, one per line.
-/

namespace PolicyAttachment
set_option autoImplicit false

/-- The instant and the cluster that a document describes. -/
def scene? (line : String) : Option (Instant × Cluster) := do
  let document ← Json.read? line
  let now ← (document.member? "now").bind Instant.ofJson?
  some (now, ← Cluster.ofJson? document)

/-- Prints what an instance did; the exit code tells whether it started. -/
def Controller.Run.print (run : Controller.Run) : IO UInt32 := do
  for request in run.requests ++ run.patches do
    IO.println request.toJson.print
  match run.failure with
  | some e =>
    IO.eprintln e.message
    return 1
  | none => return 0

end PolicyAttachment

open PolicyAttachment in
def main (args : List String) : IO UInt32 := do
  match CommandLine.parse args with
  | .error e =>
    IO.eprintln e.message
    return 2
  | .ok settings =>
    match scene? (← (← IO.getStdin).getLine) with
    | none =>
      IO.eprintln "the description of the cluster does not read"
      return 1
    | some (now, cluster) =>
      (Controller.run settings (← IO.getEnv "HOSTNAME") now cluster).print
