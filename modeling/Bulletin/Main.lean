import Bulletin.Program
import Bulletin.Tarball.Gzip
import Bulletin.Tarball.Member

/-!
# The command line

The files among which the program is called come in as a packed archive of the working directory,
on standard input:

    tar -cz . | reportd --config reportd.toml load

Requests are not taken from anywhere, so that serving ends at once, as if interrupted.
-/

namespace Bulletin

def FileTree.ofArchive (bytes : List UInt8) : FileTree :=
  (Tarball.deliver (Tarball.Gzip.unpack bytes)).entries.foldl
    (fun t e => t.write ⟨e.name⟩ (e.payload.getD [])) FileTree.empty

/-- How many bytes are read at a time. -/
def chunk : USize := 65536

/-- All bytes of a stream, behind those read. -/
partial def readAll (stream : IO.FS.Stream) (before : ByteArray) : IO ByteArray := do
  let bytes ← stream.read chunk
  if bytes.isEmpty then return before else readAll stream (before ++ bytes)

end Bulletin

/-- Calls the program. -/
def main (args : List String) : IO UInt32 := do
  let bytes ← Bulletin.readAll (← IO.getStdin) ByteArray.empty
  match Bulletin.Program.run (Bulletin.FileTree.ofArchive bytes.toList) args with
  | .serve _ => return 0
  | .stop o =>
    (← IO.getStdout).putStr o.stdout
    (← IO.getStderr).putStr o.stderr
    return o.exit.toUInt32
