import CouchClient.Http.Response

/-! # Transports — what delivers requests

    A transport takes a request and gives a response, or says what kept it
    from doing so.  The body of the response comes as a stream that has
    not been read. -/

namespace CouchClient

/-- Worlds in which requests are delivered; the bodies of the responses are
    streams `β`. -/
class Transport (β : outParam Type) (ω : Type) extends ByteStream β ω where
  /-- Delivers a request: its method, its URL, its body and its fields. -/
  request : Text → Text → Option Bytes → Headers Text → ω →
    Except Fault (Response (Option β)) × ω

end CouchClient
