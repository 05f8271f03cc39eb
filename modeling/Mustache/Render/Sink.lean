/-!
# Sinks

Where rendered bytes go. A sink takes bytes until its room is used up; what is more is lost,
and that shows.
-/

namespace Mustache

/-- A place that takes bytes. -/
structure Sink where
  /-- The bytes that were taken. -/
  written : ByteArray := .empty
  /-- How many more bytes fit, if there is a limit. -/
  room : Option Nat := none
  deriving Inhabited

namespace Sink

/-- A sink after bytes were written to it, and whether all of them fit. -/
def write (sink : Sink) (bytes : ByteArray) : Bool × Sink :=
  match sink.room with
  | none => (true, { sink with written := sink.written ++ bytes })
  | some room =>
    (decide (bytes.size ≤ room),
      { written := sink.written ++ bytes.extract 0 room, room := some (room - bytes.size) })

end Sink

end Mustache
