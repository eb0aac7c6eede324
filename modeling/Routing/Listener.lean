import Routing.Address
import Routing.Wire

/-!
# Listeners

A listener takes connections at a place, for a server, from when it is started until it is stopped.
It keeps the place after that.

* `start` and `stop` change it, and `deliver` takes what clients send.
-/

namespace Routing

/-- A listener. -/
structure Listener where
  /-- Whether it takes connections. -/
  isRunning : Bool := false
  /-- The place where it was started last. -/
  place : Option Address := none

namespace Listener

/-- Starts a listener at a place, which `bind` takes for it: the place that comes back may have
another port. -/
def start (l : Listener) (bind : Address → Except Fault Address) (a : Address) :
    Except Error (Address × Listener) × List Log.Record :=
  if l.isRunning then
    (.error (.internal "Can't start HTTP API server, it's running already"), [])
  else
    match bind a with
    | .error f => (.error (.internal ("failed to bind " ++ a.text ++ ": " ++ f.message)), [])
    | .ok place => (.ok (place, ⟨true, some place⟩),
        [⟨.info, Wire.origin, "HTTP API server listening on " ++ place.text⟩])

/-- Stops a listener, and tells whether it was running. -/
def stop (l : Listener) : Bool × Listener × List Log.Record :=
  if l.isRunning then
    (true, { l with isRunning := false }, [⟨.info, Wire.origin, "HTTP API server stopped"⟩])
  else (false, l, [⟨.warn, Wire.origin, "HTTP API server was not running"⟩])

/-- The answers to requests, one after the other. -/
def serveAll {σ : Type} (s : Server σ) (state : σ) :
    List Wire.Request → List Wire.Response × Server σ × σ × List Log.Record
  | [] => ([], s, state, [])
  | req :: rs =>
    let (response, s, state, log) := Wire.serve s state req
    let (responses, s, state, more) := serveAll s state rs
    (response :: responses, s, state, log ++ more)

/-- What a client gets for requests on one connection: nothing if the listener is not running, and a
fault if there is no way to it. -/
def deliver {σ : Type} (l : Listener) (way : Except Fault Unit) (s : Server σ) (state : σ)
    (rs : List Wire.Request) :
    Option (Except Fault (List Wire.Response)) × Server σ × σ × List Log.Record :=
  if !l.isRunning then (none, s, state, [])
  else
    match way with
    | .error f => (some (.error f), s, state, [])
    | .ok () =>
      let (responses, s, state, log) := serveAll s state rs
      (some (.ok responses), s, state, log)

end Listener

end Routing
