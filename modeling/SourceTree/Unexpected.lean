import SourceTree.Release.Reader
import SourceTree.Text.Quoted
import SourceTree.Timescale
import SourceTree.Value.Shape

/-! # Unexpected faults

What goes wrong where nobody looked for it: values of another kind than expected, numbers without
bounds, text that cannot be read. Such a fault ends whatever was going on. -/

namespace SourceTree

inductive Inquiry where
  | entry
  | entries
  deriving DecidableEq, Repr

def Inquiry.word : Inquiry → String
  | .entry => "get"
  | .entries => "items"

inductive Unexpected where
  | missingKey (key : String)
  | badValue (text : String)
  | badVersion (written : String)
  | badPattern (text : String)
  | overlongNumber (digits : Nat)
  | unusableKey (kind : String)
  /-- A value of the kind has no parts that a key of the other kind could name. -/
  | noParts (kind key : String)
  | noItem
  | unanswered (kind : String) (inquiry : Inquiry)
  | noFields (kind : String)
  | noMembers (kind : String)
  | noItems (kind : String)
  | noLength (kind : String)
  | notSearchable (kind : String)
  /-- Something else stands where code is wanted. -/
  | noCode (shown : String)
  | notJson (kind : String)
  | unreadable (text : String)
  | tooDeep (isList : Bool)
  | unsendable
  /-- The next pause takes more doublings than can be counted with. -/
  | endlessPause
  | uncountable (reason : Uncountable)
  | misshapen (issues : List Issue)
  | timeout (text : String)
  | general (text : String)
  deriving DecidableEq, Repr

namespace Unexpected

def message : Unexpected → String
  | .missingKey key => Text.quoted key
  | .badValue text => text
  | .badVersion written => s!"Invalid version: '{written}'"
  | .badPattern text => text
  | .overlongNumber digits => Decimal.overlongMessage digits
  | .unusableKey kind => s!"unhashable type: '{kind}'"
  | .noParts kind key =>
      if kind = "list" then s!"list indices must be integers or slices, not {key}"
      else if kind = "str" then s!"string indices must be integers, not '{key}'"
      else s!"'{kind}' object is not subscriptable"
  | .noItem => "list index out of range"
  | .unanswered kind inquiry => s!"'{kind}' object has no attribute '{inquiry.word}'"
  | .noFields kind => s!"'{kind}' object is not a mapping"
  | .noMembers kind => s!"'{kind}' object is not iterable"
  | .noItems kind => s!"Value after * must be an iterable, not {kind}"
  | .noLength kind => s!"object of type '{kind}' has no len()"
  | .notSearchable kind => s!"argument of type '{kind}' is not iterable"
  | .noCode shown => s!"is_0x_prefixed requires text typed arguments. Got: {shown}"
  | .notJson kind => s!"the JSON object must be str, bytes or bytearray, not {kind}"
  | .unreadable text => text
  | .tooDeep isList =>
      let kind := if isList then "array" else "object"
      s!"maximum recursion depth exceeded while decoding a JSON {kind} from a unicode string"
  | .unsendable => "Maximum serialization depth exceeded"
  | .endlessPause => "int too large to convert to float"
  | .uncountable .infinite => "cannot convert float infinity to integer"
  | .uncountable .undefined => "cannot convert float NaN to integer"
  | .misshapen issues => s!"{issues.length} validation errors"
  | .timeout text => text
  | .general text => text

def ofRelease : Release.Fault → Unexpected
  | .misspelled written => .badVersion written
  | .tooLong digits => .overlongNumber digits

def ofReading (source : String) : Value.ReadFault → Unexpected
  | .malformed cause left => .unreadable (cause.messageAt left source)
  | .tooDeep isList => .tooDeep isList
  | .tooLong digits => .overlongNumber digits

end Unexpected

end SourceTree
