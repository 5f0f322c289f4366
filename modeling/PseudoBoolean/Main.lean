import PseudoBoolean.CommandLine

namespace PseudoBoolean.CommandLine

def Answer.write (answer : Answer) : IO Unit := do
  let stdout ← IO.getStdout
  stdout.putStr answer.stdout
  stdout.flush
  (← IO.getStderr).putStr answer.stderr

partial def readLine (stream : IO.FS.Stream) (line : List UInt8) : IO (Option (List UInt8)) := do
  let bytes ← stream.read 1
  match bytes.data.toList with
  | [] => return if line.isEmpty then none else some line.reverse
  | 10 :: _ => return some (dropReturn line).reverse
  | b :: _ => readLine stream (b :: line)

partial def converseOn (stream : IO.FS.Stream) (options : ReportOptions) : IO UInt32 := do
  prompt.write
  let answer := reply options (← readLine stream [])
  answer.write
  match answer.exit? with
  | some code => return code
  | none => converseOn stream options

end PseudoBoolean.CommandLine

open PseudoBoolean.CommandLine in
def main (arguments : List String) : IO UInt32 := do
  match Command.ofArguments? arguments with
  | none =>
    IO.eprintln "Usage: bool2pb [-i] [-l] [--no-cnf] [--no-input] [-V] [EXPR]..."
    return 2
  | some .version =>
    IO.println versionText
    return 0
  | some (.run invocation) =>
    let answer := invocation.start
    answer.write
    match answer.exit? with
    | some code => return code
    | none => converseOn (← IO.getStdin) invocation.reportOptions
