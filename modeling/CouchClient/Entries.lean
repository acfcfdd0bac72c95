/-! # Entries — maps that keep the order of insertion

    A map is a list of pairs.  `insert` keeps the place of a key that is
    there already and puts a new one last, so a list built by `insert` from
    nothing holds no key twice. -/

namespace CouchClient.Entries

variable {α β : Type} [DecidableEq α]

/-- The value of a key. -/
def get? (k : α) : List (α × β) → Option β
  | [] => none
  | (k', v) :: rest => if k' = k then some v else get? k rest

/-- The map with a new value for a key. -/
def insert (k : α) (v : β) : List (α × β) → List (α × β)
  | [] => [(k, v)]
  | (k', v') :: rest =>
      if k' = k then (k', v) :: rest else (k', v') :: insert k v rest

/-- The map without a key. -/
def erase (k : α) : List (α × β) → List (α × β)
  | [] => []
  | (k', v') :: rest =>
      if k' = k then rest else (k', v') :: erase k rest

/-- The map with new values for several keys, one after the other. -/
def insertAll (m pairs : List (α × β)) : List (α × β) :=
  pairs.foldl (fun m p => insert p.1 p.2 m) m

/-- The map that pairs make: a key that comes again keeps its first place
    and takes the last value. -/
def ofList (pairs : List (α × β)) : List (α × β) := insertAll [] pairs

end CouchClient.Entries
