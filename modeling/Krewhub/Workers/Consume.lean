import Krewhub.E2b.ConnectStream
import Krewhub.Workers.Tail

/-!
# Consuming the chunks of a command

`_consume` of `SandboxHand` goes through the chunks of a stream until one tells the exit code or an error, or
until it finds that the command has been cancelled. What a process writes goes to the tail of its stream, and to
the tape as an `output` event; the tape is taken to accept it.
-/

namespace Krewhub

/-- `_TAIL_BYTES`. -/
def tailBytes : Nat := 16 * 1024

/-- What the code makes of exceptions and of values in its error texts: `str(exc)`, and `repr(value)`. -/
structure ErrorTexts where
  exception : PyExc → PyStr
  repr : PyValue → PyStr

/-- What has been found out about a command; `outputs` are the events on the tape, each a stream and a text. -/
structure Consumed where
  exitCode : Option Int := none
  infraError : Option PyStr := none
  stdout : Tail := { max := tailBytes }
  stderr : Tail := { max := tailBytes }
  outputs : List (PyStr × PyStr) := []

namespace Consumed

variable (B : Builtins) (texts : ErrorTexts)

/-- The outer `except Exception`. -/
def streamError (c : Consumed) (exc : PyExc) : Consumed :=
  { c with infraError := some (PyStr.ofString "e2b_stream_error: " ++ texts.exception exc) }

/-- A chunk of output. -/
def output (c : Consumed) (stream data : PyStr) : Consumed :=
  { c with
    stdout := if stream = PyStr.ofString "stdout" then c.stdout.append data else c.stdout
    stderr := if stream = PyStr.ofString "stdout" then c.stderr else c.stderr.append data
    outputs := c.outputs ++ [(stream, data)] }

/-- One chunk; a text is appended to a tail by its bytes, which nothing but a string has. -/
def chunk (c : Consumed) (chunk : PyValue) : Flow Consumed Consumed :=
  if chunk.hasKey "exit_code" then
    match (chunk.field "exit_code").toInt B with
    | .ok n => .stop { c with exitCode := some n }
    | .error exc =>
      if exc = .typeError ∨ exc.isValueError then
        .stop { c with
          exitCode := none
          infraError := some (PyStr.ofString "bad_exit_code: " ++ texts.repr (chunk.field "exit_code")) }
      else .stop (c.streamError texts exc)
  else if chunk.hasKey "error" then .stop { c with infraError := some ((chunk.field "error").text B) }
  else
    let data := (chunk.field "data").orElse (.str [])
    if ((chunk.field "stream").isStr (PyStr.ofString "stdout") || (chunk.field "stream").isStr (PyStr.ofString "stderr"))
        && data.truthy then
      match chunk.field "stream", data with
      | .str stream, .str data => .next (c.output stream data)
      | _, _ => .stop (c.streamError texts .attributeError)
    else .next c

/-- `_consume`, when the poll for the cancellation at the n-th chunk finds `cancelled n`; `exc` is what the stream
raises at its end, if anything. -/
def consume (cancelled : Nat → Bool) (exc : Option PyExc) (c : Consumed) (n : Nat) : List PyValue → Consumed
  | [] =>
    match exc with
    | none => c
    | some exc => c.streamError texts exc
  | chunk :: chunks =>
    if cancelled n then c
    else
      match c.chunk B texts chunk with
      | .stop c' => c'
      | .next c' => consume cancelled exc c' (n + 1) chunks

end Consumed

end Krewhub
