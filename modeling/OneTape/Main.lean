import OneTape.Command.Run

namespace OneTape.Command

partial def readBytes (stream : IO.FS.Stream) (bytes : ByteArray) : IO ByteArray := do
  let chunk ← stream.read 65536
  if chunk.isEmpty then return bytes else readBytes stream (bytes ++ chunk)

def readInput (needed : Bool) : IO (Option ByteArray) := do
  let stdin ← IO.getStdin
  if !needed || (← stdin.isTty) then return none
  return some (← readBytes stdin .empty)

end OneTape.Command

open OneTape.Command

def main (words : List String) : IO UInt32 := do
  let needed := match Options.ofWords words with
    | .ok o => o.needInput
    | .error _ => false
  let transcript := runWords words (← readInput needed)
  (← IO.getStdout).putStr transcript.output
  (← IO.getStderr).putStr transcript.errors
  return transcript.code.toUInt32
