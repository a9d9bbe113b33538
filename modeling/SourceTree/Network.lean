import SourceTree.Timescale

/-! # Networks

What happens outside is seen through requests. A network decides how it reacts to a request for an
address, and may let that depend on everything that happened before. The world records the clock
and the events so far; only requests and pauses move the clock. -/

namespace SourceTree

inductive Reaction where
  | answered (status : Int) (body : String)
  | timedOut
  | unreachable (cause : String)
  /-- Something that no request accounts for. -/
  | broken (reason : String)
  deriving DecidableEq, Repr

structure Reply (T : Type) where
  latency : T
  reaction : Reaction

structure Request (T : Type) where
  url : String
  timeout : T
  headers : List (String × String)

inductive Event (T : Type) where
  | request (request : Request T) (start : T)
  | pause (length : T)

structure Network (T : Type) where
  /-- The reply to a request for an address, after the given events, newest first. -/
  reply : List (Event T) → String → Reply T

structure World (T : Type) where
  now : T
  /-- The events so far, newest first. -/
  past : List (Event T)

namespace World

variable {T : Type}

def startingAt (now : T) : World T := ⟨now, []⟩

def requested (world : World T) : List String :=
  world.past.reverse.filterMap fun
    | .request request _ => some request.url
    | .pause _ => none

def pauses (world : World T) : List T :=
  world.past.reverse.filterMap fun
    | .request _ _ => none
    | .pause length => some length

section

variable [Timescale T]

def advance (world : World T) (length : T) : World T :=
  { world with now := world.now + length }

def pause (world : World T) (length : T) : World T :=
  ⟨world.now + length, .pause length :: world.past⟩

def request (network : Network T) (request : Request T) (world : World T) :
    Reaction × World T :=
  let reply := network.reply world.past request.url
  (reply.reaction, ⟨world.now + reply.latency, .request request world.now :: world.past⟩)

end

end World

end SourceTree
