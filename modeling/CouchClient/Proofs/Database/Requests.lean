import CouchClient.Proofs.Database.Operations

/-! # Requests — every operation goes its way

    Each operation is taken apart into its checks, its request and what it
    does with the reply.  A document is read, a write has to be answered by
    what was written, and a listing hands its body on.

    * `isMetBy_get` … `isMetBy_query` — the operations, one by one;
    * `isMetBy_perform` — all of them. -/

namespace CouchClient.Operation

variable {β ω : Type} [Transport β ω] {op : Operation}

/-! ## Operations on documents -/

variable (db : Database)

/-- The path of a document has no surrogate if its identifier has none. -/
theorem IsEncodable.docPath {id : Text} (h : op.IsEncodable)
    (hid : id ∈ op.names) :
    ∀ segment ∈ docPath id, Text.isWellFormed segment := by
  intro segment hsegment
  exact h.name hid (subset_of_mem_docPath hsegment)

/-- A deletion names its revision, if there is one. -/
theorem IsEncodable.revision {id : Text} {rev : Option Text}
    (h : (delete id rev).IsEncodable) :
    ∀ p ∈ [(text "rev", rev.getD [])], p.1.isWellFormed ∧ p.2.isWellFormed := by
  intro p hp
  rw [List.mem_singleton.mp hp]
  refine ⟨Text.isWellFormed_text "rev", ?_⟩
  cases rev with
  | none => rfl
  | some rev =>
      refine h.name (List.mem_cons_of_mem _ ?_) (List.Subset.refl rev)
      exact List.mem_singleton_self rev

/-- Getting a document checks names, identifier and options, and asks then. -/
theorem isMetBy_get [Limits] (id : Text) (options : List (Text × Value)) :
    (get id options).IsMetBy (db.perform (get id options) : Action ω (Answer β)) := by
  simp only [Database.perform, Database.get, Resource.get, bind_assoc]
  refine isMetBy_checkNames rfl (List.Subset.refl _) ?_
  refine isMetBy_required List.mem_cons_self ?_
  refine isMetBy_encode rfl ?_
  intro pairs hpairs
  refine isMetBy_request ?_ ?_
  · intro hencodable
    exact ⟨hencodable.docPath List.mem_cons_self, hencodable.pairs hpairs⟩
  · intro r _
    refine isDoneBy_readBody ?_
    intro raw
    exact settles_pure (by simp)

/-- Putting a document refuses the arguments or the document, or asks and reads
    the revision. -/
theorem isMetBy_put [Limits] (id : Text) (document : Value)
    (options : List (Text × Value)) :
    (put id document options).IsMetBy
      (db.perform (put id document options) : Action ω (Answer β)) := by
  simp only [Database.perform, Database.put, Resource.putJson, Resource.put,
    bind_assoc]
  refine isMetBy_checkNames rfl (List.Subset.refl _) ?_
  refine isMetBy_required List.mem_cons_self ?_
  refine isMetBy_encode rfl ?_
  intro pairs hpairs
  refine isMetBy_documentBody rfl fun body => isMetBy_jsonFields fun fields => ?_
  refine isMetBy_request ?_ ?_
  · intro hencodable
    exact ⟨hencodable.docPath List.mem_cons_self, hencodable.pairs hpairs⟩
  · intro r _
    refine isDoneBy_readJson ?_
    intro answer raw
    refine settles_decoded _ ?_
    intro result
    -- the answer has to be about the document that was put
    by_cases hid : result.id = id
    · rw [if_pos hid]
      exact settles_pure (by simp)
    · rw [if_neg hid]
      exact ⟨_, .error (.consistency rfl), rfl⟩

/-- Creating a document refuses the options or the document, or asks and reads
    the result. -/
theorem isMetBy_create [Limits] (document : Value) (options : List (Text × Value)) :
    (create document options).IsMetBy
      (db.perform (create document options) : Action ω (Answer β)) := by
  simp only [Database.perform, Database.create, Resource.postJson, Resource.post,
    bind_assoc]
  refine isMetBy_checkNames rfl (List.Subset.refl _) (isMetBy_encode rfl ?_)
  intro pairs hpairs
  refine isMetBy_documentBody rfl fun body => isMetBy_jsonFields fun fields => ?_
  refine isMetBy_request ?_ ?_
  · intro hencodable
    exact ⟨by simp, hencodable.pairs hpairs⟩
  · intro r _
    refine isDoneBy_readJson ?_
    intro answer raw
    refine settles_decoded _ ?_
    intro result
    exact settles_pure (by simp)

/-- Deleting a document takes the revision of the header, or else that of the
    reply's text. -/
theorem isMetBy_delete [Limits] (id : Text) (rev : Option Text) :
    (delete id rev).IsMetBy (db.perform (delete id rev) : Action ω (Answer β)) := by
  simp only [Database.perform, Database.delete, Resource.delete, bind_assoc]
  refine isMetBy_required List.mem_cons_self (isMetBy_request ?_ ?_)
  · intro hencodable
    exact ⟨hencodable.docPath List.mem_cons_self, hencodable.revision⟩
  · intro r _
    -- the revision may stand in the fields, but the body is read anyway
    cases (revisionOf r.headers).filter (!·.isEmpty) with
    | some rev =>
        simp only [bind_assoc]
        refine isDoneBy_readBody ?_
        intro raw
        exact settles_pure (by simp)
    | none =>
        simp only [bind_assoc]
        refine isDoneBy_readJson ?_
        intro answer raw
        refine settles_decoded _ ?_
        intro result
        exact settles_pure (by simp)

/-! ## Maintenance -/

theorem isMetBy_stats [Limits] : stats.IsMetBy (db.perform stats : Action ω (Answer β)) := by
  simp only [Database.perform, Database.stats, Resource.getJson, Resource.get,
    bind_assoc]
  refine isMetBy_jsonFields fun fields => isMetBy_request ?_ ?_
  · intro _
    exact ⟨by simp, by simp⟩
  · intro r _
    refine isDoneBy_readJson ?_
    intro answer raw
    refine settles_decoded _ ?_
    intro result
    exact settles_pure (by simp)

/-- A command asks at its path and drops the reply's text. -/
theorem isMetBy_command [Limits] {path : List Text}
    (hpath : op.IsEncodable → ∀ segment ∈ path, Text.isWellFormed segment) :
    op.IsMetBy (do
      let _ ← db.command path
      return .done : Action ω (Answer β)) := by
  simp only [Database.command, Resource.post, bind_assoc]
  refine isMetBy_request ?_ ?_
  · intro hencodable
    exact ⟨hpath hencodable, by simp⟩
  · intro r _
    refine isDoneBy_readBody ?_
    intro raw
    exact settles_pure (by simp)

/-! ## Listings -/

/-- A listing asks at its path and gives the reply as a stream. -/
theorem isMetBy_listing [Limits] {path : List Text} {pairs : List (Text × Text)}
    (hlisting : op.isListing)
    (hparts : op.IsEncodable → (∀ segment ∈ path, Text.isWellFormed segment)
      ∧ ∀ p ∈ pairs, p.1.isWellFormed ∧ p.2.isWellFormed) :
    op.IsMetBy (do return .rows (← db.listing path pairs) : Action ω (Answer β)) := by
  simp only [Database.listing, Resource.get, bind_assoc]
  refine isMetBy_request hparts ?_
  intro r hsuccess w
  exact .left hsuccess hlisting

/-- Listing at segments is met if the segments have no surrogate. -/
theorem isMetBy_rowsAt [Limits] {path : List Text} {options : List (Text × Value)}
    (hlisting : op.isListing) (hoptions : options = op.options)
    (harguments : ["self", "path"] ⊆ op.parameters)
    (hpath : op.IsEncodable → ∀ segment ∈ path, Text.isWellFormed segment) :
    op.IsMetBy (do return .rows (← db.rowsAt path options) : Action ω (Answer β)) := by
  simp only [Database.rowsAt, Database.checkListingNames, bind_assoc]
  refine isMetBy_checkNames hoptions harguments (isMetBy_encode hoptions ?_)
  intro pairs hpairs
  refine isMetBy_listing db hlisting ?_
  intro hencodable
  exact ⟨hpath hencodable, hencodable.pairs hpairs⟩

/-- Listing at a written path is met, with the pairs of its query added to the
    options. -/
theorem isMetBy_rowsAtWritten [Limits] (target : Text) (options : List (Text × Value)) :
    (rowsAtWritten target options).IsMetBy
      (db.perform (rowsAtWritten target options) : Action ω (Answer β)) := by
  simp only [Database.perform, Database.rowsAtWritten,
    Database.checkListingNames, bind_assoc]
  refine isMetBy_checkNames rfl (List.Subset.refl _) (isMetBy_encode rfl ?_)
  intro pairs hpairs
  obtain ⟨hpath, hquery⟩ := Text.subset_of_cut (.char '?') target
  refine isMetBy_listing db rfl ?_
  intro hencodable
  constructor
  · intro segment
    exact isWellFormed_of_mem_segmentsOf
      (hencodable.name List.mem_cons_self hpath)
  · intro p hp
    rcases List.mem_append.mp hp with hp | hp
    · refine Url.isWellFormed_of_mem_readQuery ?_ p hp
      cases hcut : (Text.cut (.char '?') target).2 with
      | none => rfl
      | some query =>
          exact hencodable.name List.mem_cons_self (hquery query hcut)
    · exact hencodable.pairs hpairs p hp

/-- Querying a view refuses an empty name, or asks at the path of the view. -/
theorem isMetBy_query [Limits] (ddoc view : Text) (options : List (Text × Value)) :
    (query ddoc view options).IsMetBy
      (db.perform (query ddoc view options) : Action ω (Answer β)) := by
  simp only [Database.perform, Database.query, Database.requiredDesign, bind_assoc]
  refine isMetBy_checkNames rfl (by simp [parameters]) ?_
  refine isMetBy_required List.mem_cons_self ?_
  refine isMetBy_required (by simp [required]) ?_
  refine isMetBy_required (by simp [required]) ?_
  refine isMetBy_rowsAt db rfl rfl (by simp [parameters]) ?_
  intro hencodable segment hsegment
  rcases List.mem_cons.mp hsegment with rfl | hsegment
  · exact Text.isWellFormed_text "_design"
  rcases List.mem_cons.mp hsegment with rfl | hsegment
  · exact hencodable.name List.mem_cons_self (designName_subset ddoc)
  rcases List.mem_cons.mp hsegment with rfl | hsegment
  · exact Text.isWellFormed_text "_view"
  rw [List.mem_singleton.mp hsegment]
  exact hencodable.name (List.mem_cons_of_mem _ List.mem_cons_self)
    (List.Subset.refl view)

/-! ## Every operation -/

/-- An operation refuses its arguments, or it makes one request and does what
    it has to with the reply. -/
theorem isMetBy_perform [Limits] (op : Operation) :
    op.IsMetBy (db.perform op : Action ω (Answer β)) := by
  cases op with
  | get id options => exact isMetBy_get db id options
  | put id document options => exact isMetBy_put db id document options
  | create document options => exact isMetBy_create db document options
  | delete id rev => exact isMetBy_delete db id rev
  | stats => exact isMetBy_stats db
  | compact =>
      refine isMetBy_command db ?_
      intro _ segment hsegment
      rw [List.mem_singleton.mp hsegment]
      exact Text.isWellFormed_text "_compact"
  | compactView ddoc =>
      simp only [Database.perform, Database.compactView, Database.requiredDesign,
        bind_assoc]
      refine isMetBy_required List.mem_cons_self (isMetBy_command db ?_)
      intro hencodable segment hsegment
      rcases List.mem_cons.mp hsegment with rfl | hsegment
      · exact Text.isWellFormed_text "_compact"
      · rw [List.mem_singleton.mp hsegment]
        exact hencodable.name List.mem_cons_self (List.Subset.refl ddoc)
  | viewCleanup =>
      refine isMetBy_command db ?_
      intro _ segment hsegment
      rw [List.mem_singleton.mp hsegment]
      exact Text.isWellFormed_text "_view_cleanup"
  | rowsAt path options =>
      refine isMetBy_rowsAt db rfl rfl (List.Subset.refl _) ?_
      intro hencodable segment hsegment
      exact hencodable.name hsegment (List.Subset.refl segment)
  | rowsAtWritten target options => exact isMetBy_rowsAtWritten db target options
  | allDocs options =>
      simp only [Database.perform, Database.allDocs, bind_assoc]
      refine isMetBy_checkNames rfl (by simp [parameters]) ?_
      refine isMetBy_rowsAt db rfl rfl (List.Subset.refl _) ?_
      intro _ segment hsegment
      rw [List.mem_singleton.mp hsegment]
      exact Text.isWellFormed_text "_all_docs"
  | query ddoc view options => exact isMetBy_query db ddoc view options

end CouchClient.Operation
