import SourceTree.FetchError
import SourceTree.Network
import SourceTree.Unexpected

/-! # Fetching

A fetch requests an address and retries after failures that may pass. Pauses between attempts
double from one to the next, and no pause may end at or after the deadline. A fetch breaks off when
it has to pause longer than its time scale can say. -/

namespace SourceTree

structure FetchPolicy (T : Type) where
  timeout : T
  /-- How many attempts may follow the first. -/
  retries : Int
  backoff : T

inductive Interruption (T : Type) where
  | late (after : T)
  | broken (fault : Unexpected)

inductive Fetched (T : Type) where
  | content (text : String)
  | failed (error : FetchError T)
  | interrupted (interruption : Interruption T)

namespace FetchPolicy

variable {T : Type} [Timescale T]

def headers : List (String × String) :=
  [("Accept", "text/plain"), ("User-Agent", "ape-solidity-imports")]

def verdict (policy : FetchPolicy T) (url : String) : Reaction → Fetched T
  | .answered status body =>
      if 200 ≤ status ∧ status < 300 then .content body else .failed (.status url status)
  | .timedOut => .failed (.timeout url policy.timeout)
  | .unreachable cause => .failed (.connection url cause)
  | .broken reason => .interrupted (.broken (.general reason))

def attempt (policy : FetchPolicy T) (network : Network T) (url : String) (world : World T) :
    Fetched T × World T :=
  let (reaction, after) := world.request network ⟨url, policy.timeout, headers⟩
  (policy.verdict url reaction, after)

def isReached (deadline : Option T) (moment : T) : Bool :=
  deadline.any fun limit => !decide (moment < limit)

/-- Whether a pause that ends at a moment ends at or after the deadline. Where moments cannot be
compared it does not. -/
def endsLate (deadline : Option T) (moment : T) : Bool :=
  deadline.any fun limit => limit ≤ moment

/-- An attempt and up to `left` more; `made` retries went before. -/
def attempts (policy : FetchPolicy T) (network : Network T) (deadline : Option T) (budget : T)
    (url : String) : (left made : Nat) → World T → Fetched T × World T
  | 0, _, world => policy.attempt network url world
  | left + 1, made, world =>
      match policy.attempt network url world with
      | (.failed error, after) =>
          if !error.isRetryable then
            (.failed error, after)
          else
            match Timescale.doubled policy.backoff made with
            | none => (.interrupted (.broken .endlessPause), after)
            | some delay =>
                if endsLate deadline (after.now + delay) then
                  (.interrupted (.late budget), after)
                else
                  attempts policy network deadline budget url left (made + 1) (after.pause delay)
      | settled => settled

def budget (deadline : Option T) (now : T) : T :=
  Timescale.limitOr (deadline.map (Timescale.remaining now)) 0

def fetch (policy : FetchPolicy T) (network : Network T) (deadline : Option T) (url : String)
    (world : World T) : Fetched T × World T :=
  policy.attempts network deadline (budget deadline world.now) url policy.retries.toNat 0 world

end FetchPolicy

end SourceTree
