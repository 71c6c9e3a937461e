/-!
# Keys

Which key presses end a run. On a full screen the terminal does not interrupt the program, so the
interrupt key is a key like others.
-/

namespace FleetTelemetry.Dashboard

inductive KeyCode where
  | char (c : Char)
  | escape
  | other
  deriving DecidableEq, Repr

inductive KeyMotion where
  | press
  | release
  | repeat
  deriving DecidableEq, Repr

structure KeyEvent where
  code : KeyCode
  control : Bool := false
  motion : KeyMotion := .press
  deriving DecidableEq, Repr

def KeyEvent.quits (event : KeyEvent) : Bool :=
  event.motion = .press &&
    match event.code with
    | .char 'q' => true
    | .char 'c' => event.control
    | .escape => true
    | _ => false

inductive KeyboardPoll where
  | nothing
  | key (event : KeyEvent)
  | unreadable
  deriving DecidableEq, Repr

def keyboardThread : String := "quit-listener"

/-- Whether a run is to end after the keyboard was watched: it was ending anyway, a quit key was
pressed or the keyboard cannot be read. -/
def endsAfter (ending : Bool) (polled : KeyboardPoll) : Bool :=
  ending ||
    match polled with
    | .nothing => false
    | .key event => event.quits
    | .unreadable => true

end FleetTelemetry.Dashboard
