import CouchClient.Error

/-! # Update sequences — tokens of two shapes

    Older servers count the updates of a database, newer ones give a token
    that has no meaning.  Both have a text form. -/

namespace CouchClient

/-- The text form of an update sequence; without one it is empty.  A number
    comes from a reply, and what could be read is not too long to be
    written. -/
def updateSeqText : Value → Except BadReply Text
  | .null => .ok []
  | .str t => .ok t
  | .int n => .ok (Text.ofInt n)
  | v => .error (.notUpdateSeq v)

end CouchClient
