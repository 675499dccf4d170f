import ArchSpec.CommandLine.Execute

/-!
# The command line

Reads and writes files on the disk, prints what a command prints, reports its
warnings and failure as errors, and ends with its exit status.
-/

namespace ArchSpec.CommandLine

/-- Why the system refuses to read or write a file. -/
def refusal : IO.Error → String
  | .noFileOrDirectory .. => missing
  | .permissionDenied .. => "Permission denied (os error 13)"
  | failure@(.inappropriateType _ code _) | failure@(.invalidArgument _ code _) =>
      match code.toInt32.toInt.natAbs with
      | 20 => notDirectory
      | 21 => isDirectory
      | 36 => nameTooLong
      | _ => toString failure
  | failure => toString failure

/-- The result of an action, or the reason of its failure. -/
def attempting {α : Type} (action : IO α) : IO (Except String α) := do
  try return .ok (← action)
  catch failure => return .error (refusal failure)

def textOf (bytes : ByteArray) : Except String String :=
  match String.fromUTF8? bytes with
  | some text => .ok text
  | none => .error "stream did not contain valid UTF-8"

def diskAccess : FileAccess IO where
  read path := return (← attempting (IO.FS.readBinFile path)).bind textOf
  write path text := attempting (IO.FS.writeFile path text)

def respond (arguments : List String) : IO UInt32 := do
  let answer ← answer diskAccess Program.practicalBound arguments
  IO.print answer.printed
  answer.complaints.forM fun line => IO.eprintln line
  return UInt32.ofNat answer.status

end ArchSpec.CommandLine

def main (arguments : List String) : IO UInt32 :=
  ArchSpec.CommandLine.respond arguments
