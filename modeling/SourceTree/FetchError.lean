import SourceTree.Timescale

/-! # Failed fetches

Why the content of an address, or of an import path with all its addresses, could not be had. -/

namespace SourceTree

inductive FetchError (T : Type) where
  | general (url cause : String)
  | timeout (url : String) (after : T)
  | connection (url cause : String)
  | status (url : String) (code : Int)
  /-- Every address of a path failed, `first` at the first of them. -/
  | exhausted (path : String) (first : FetchError T) (attempted : List String)
  deriving Inhabited

namespace FetchError

variable {T : Type}

def url : FetchError T → String
  | .general url _ => url
  | .timeout url _ => url
  | .connection url _ => url
  | .status url _ => url
  | .exhausted _ first _ => first.url

/-- Whether another attempt may succeed. Of the status codes, those of server faults, of timeouts
and of exceeded rates may pass; all others are final. -/
def isRetryable : FetchError T → Bool
  | .status _ code => 500 ≤ code || code = 408 || code = 429
  | _ => true

def statusCode : FetchError T → Int
  | .timeout _ _ => 504
  | _ => 502

section

variable [Timescale T]

def cause : FetchError T → String
  | .general _ cause => cause
  | .timeout _ after =>
      let seconds := Timescale.text after
      s!"Request timed out after {seconds}s"
  | .connection _ cause => cause
  | .status _ code => s!"HTTP status {code}"
  | .exhausted _ first _ => first.cause

def message : FetchError T → String
  | .exhausted path first attempted =>
      let count := attempted.length
      let reason := first.message
      s!"Failed to fetch {path} from all sources ({count} attempted): {reason}"
  | error =>
      let url := error.url
      let cause := error.cause
      s!"Failed to fetch '{url}': {cause}"

end

end FetchError

end SourceTree
