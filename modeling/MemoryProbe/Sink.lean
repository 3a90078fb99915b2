namespace MemoryProbe

/-!
Receivers of output.  A sink takes texts whole or refuses them whole, and what
it refuses leaves no mark on the text it holds.  Whether it refuses may depend
on how often it was asked and on how much it holds, so a sink can fail once and
work again later.
-/

/-- What a sink is asked for. -/
inductive SinkRequest where
  | write (text : String)
  | flush
deriving DecidableEq, Repr

/-- A receiver of output with the text it took so far. -/
structure Sink where
  /-- Whether a request is met, by the number of earlier requests and the
  number of bytes held. -/
  accepts : (requests held : Nat) -> SinkRequest -> Bool
  requests : Nat := 0
  text : String := ""

namespace Sink

/-- A sink that takes everything. -/
def unlimited : Sink where
  accepts _ _ _ := true

/-- A sink that refuses every text that would bring it above `limit` bytes. -/
def limited (limit : Nat) : Sink where
  accepts _ held
    | .write text => held + text.utf8ByteSize ≤ limit
    | .flush => true

/-- The text that a met request adds. -/
def addition : SinkRequest -> String
  | .write text => text
  | .flush => ""

/-- Ask for something: whether it was met, and the sink afterwards. -/
def ask (sink : Sink) (request : SinkRequest) : Bool × Sink :=
  if sink.accepts sink.requests sink.text.utf8ByteSize request then
    (true, { sink with
      requests := sink.requests + 1
      text := sink.text ++ addition request })
  else
    (false, { sink with requests := sink.requests + 1 })

/-- Write texts one after the other, up to the first that is refused. -/
def writeAll (sink : Sink) : List String -> Bool × Sink
  | [] => (true, sink)
  | text :: rest =>
    match sink.ask (.write text) with
    | (true, taken) => taken.writeAll rest
    | (false, refused) => (false, refused)

end Sink

end MemoryProbe
