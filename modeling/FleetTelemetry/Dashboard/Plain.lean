import FleetTelemetry.Dashboard.Overview
import FleetTelemetry.Files.Fault

/-!
# The plain dashboard

A frame is written as terminal commands: clear the screen, go home, then one line after another.
After the last command the stream is flushed. The stream may stop accepting bytes at any point, or
refuse to be flushed; drawing stops there and reports it.
-/

namespace FleetTelemetry.Dashboard

open Text

/-- What is sent to a terminal. -/
inductive Command where
  | clearScreen
  | moveHome
  | print (text : String)
  | nextLine
  deriving DecidableEq, Repr

def Command.text : Command → String
  | .clearScreen => "\x1b[2J"
  | .moveHome => "\x1b[1;1H"
  | .print text => text
  | .nextLine => "\x1b[1E"

def plainLines (view : View) : List String :=
  (overview view).map (fun line => padRight labelWidth line.1 ++ ":  " ++ line.2) ++
    "" :: nodeHeader :: view.nodes.map nodeLine

def plainCommands (view : View) : List Command :=
  .clearScreen :: .moveHome :: (plainLines view).flatMap fun line => [.print line, .nextLine]

def plainText (view : View) : String :=
  String.join ((plainCommands view).map Command.text)

def Command.bytes (command : Command) : List UInt8 :=
  command.text.toUTF8.toList

/-- A stream of bytes that stays open for a number of bytes, or for ever. -/
structure Stream where
  accepted : List UInt8 := []
  room : Option Nat := none
  fault : FileFault := .diskFull
  /-- How many of the accepted bytes were handed on by the last flush. -/
  flushed : Nat := 0
  flushFault : Option FileFault := none

namespace Stream

def hasRoom (stream : Stream) (count : Nat) : Bool :=
  stream.room.all fun room => count ≤ room

def part (stream : Stream) (bytes : List UInt8) : List UInt8 :=
  match stream.room with
  | none => bytes
  | some room => bytes.take room

/-- Writes bytes as far as there is room for them, and fails when some are left. -/
def write (stream : Stream) (bytes : List UInt8) : Except FileFault Unit × Stream :=
  (if stream.hasRoom bytes.length then .ok () else .error stream.fault,
    { stream with
      accepted := stream.accepted ++ stream.part bytes
      room := stream.room.map fun room => room - bytes.length })

def flush (stream : Stream) : Except FileFault Unit × Stream :=
  match stream.flushFault with
  | some fault => (.error fault, stream)
  | none => (.ok (), { stream with flushed := stream.accepted.length })

end Stream

def writeCommands : List Command → Stream → Except FileFault Unit × Stream
  | [], stream => (.ok (), stream)
  | command :: rest, stream =>
    match stream.write command.bytes with
    | (.ok (), stream) => writeCommands rest stream
    | (.error fault, stream) => (.error fault, stream)

def drawPlain (view : View) (stream : Stream) : Except FileFault Unit × Stream :=
  match writeCommands (plainCommands view) stream with
  | (.ok (), stream) => stream.flush
  | (.error fault, stream) => (.error fault, stream)

end FleetTelemetry.Dashboard
