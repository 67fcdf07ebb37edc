import Triage.Command
import Triage.Text.Utf8

/-!
What is read from the outputs of a child while it runs.  Each stream has a reader of its own.  The
chunks that they read are kept as they come and decoded only at the end, so a character may lie in
several of them.
-/

namespace Triage

inductive Stream
  | output
  | errors
  deriving DecidableEq, Repr

inductive Reply
  /-- What was read: nothing, if and only if the stream has ended. -/
  | bytes (bs : Bytes)
  /-- A signal came first. -/
  | interrupted
  | fault
  deriving DecidableEq, Repr

structure Recording where
  capture : Capture := .merged
  output : List Bytes := []
  errors : List Bytes := []
  deriving DecidableEq, Repr

namespace Recording

def add (r : Recording) (s : Stream) (chunk : Bytes) : Recording :=
  match r.capture, s with
  | .separate, .errors => { r with errors := chunk :: r.errors }
  | _, _ => { r with output := chunk :: r.output }

def blockSize : Nat := 8192

/-- What a reader of a stream does with what came of reading; gives whether it reads on. -/
def hear (r : Recording) (s : Stream) : Reply → Recording × Bool
  | .bytes [] => (r, false)
  | .bytes bs => (r.add s bs, true)
  | .interrupted => (r, true)
  | .fault => (r, false)

def readBlocks (r : Recording) (s : Stream) (bs : Bytes) : Nat → Recording
  | 0 => r
  | n + 1 =>
    ((r.hear s (.bytes (bs.take blockSize))).1).readBlocks s (bs.drop blockSize) n

def readAll (r : Recording) (s : Stream) (bs : Bytes) : Recording :=
  r.readBlocks s bs ((bs.length + (blockSize - 1)) / blockSize)

def joined (chunks : List Bytes) : Bytes := chunks.reverse.flatten

def outputText (r : Recording) : String :=
  String.ofList (Text.Utf8.decode (joined r.output))

def errorsText (r : Recording) : Option String :=
  match r.capture with
  | .merged => none
  | .separate => some (String.ofList (Text.Utf8.decode (joined r.errors)))

end Recording
end Triage
