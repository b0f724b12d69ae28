import DocumentMapper.Request
import DocumentMapper.Result
import DocumentMapper.TextMap

/-
  A key-value store in memory.

  Every change of a document gives it a fresh token. A request
  with a token other than zero is carried out only if it shows
  the token that the document has. A request that fails
  changes nothing.

  Key definitions include:
    * `StoredDocument`
    * `MemoryStore`
    * `MemoryStore.resolve`
    * `MemoryStore.perform`

  Main statements include:
    * `MemoryStore.document?_put`
    * `MemoryStore.document?_drop`
-/

namespace DocumentMapper

------------------------------------------------------------
-- Contents
------------------------------------------------------------

/- A payload and the token of its last change. -/
structure StoredDocument where
  payload : Text
  cas : UInt64
  deriving DecidableEq, Repr, Inhabited

/-
  The known collections by their qualified names, the
  documents by their places, and the token of the next change.
-/
structure MemoryStore where
  collections : List Text := [Text.lit "_default._default"]
  documents : TextMap StoredDocument := .empty
  nextCas : UInt64 := 1

/- The place of a document: its collection and its identifier. -/
def placeOf
    (collection id : Text) : Text :=
  collection ++ Text.lit "/" ++ id

/- The place that a request is about. -/
def Request.place
    (r : Request) : Text :=
  placeOf r.collection.qualified r.id

namespace MemoryStore

/- The document at a place. -/
def document?
    (s : MemoryStore)
    (place : Text) : Option StoredDocument :=
  s.documents.get? place

/- Make a collection known. -/
def openCollection
    (s : MemoryStore)
    (name : Text) : MemoryStore :=
  { s with collections := name :: s.collections }

/- Put a document at a place, with a given token. -/
def seed
    (s : MemoryStore)
    (place : Text)
    (document : StoredDocument) : MemoryStore :=
  { s with documents := s.documents.insert place document }

------------------------------------------------------------
-- Faults
------------------------------------------------------------

/- A store knows no such collection. -/
def noCollection
    (name : CollectionName) : Error :=
  { code := .notFound
    message := Text.lit "no collection " ++ name.qualified }

/- There is no such document. -/
def noDocument
    (id : Text) : Error :=
  { code := .notFound
    message := Text.lit "document not found: " ++ id }

/- There is such a document already. -/
def documentTaken
    (id : Text) : Error :=
  { code := .documentExists
    message := Text.lit "document exists: " ++ id }

/- The document has another token. -/
def tokenMismatch
    (id : Text) : Error :=
  { code := .casMismatch
    message := Text.lit "cas mismatch for " ++ id }

------------------------------------------------------------
-- Requests
------------------------------------------------------------

/- The collection with a name, if it is known. -/
def resolve
    (s : MemoryStore)
    (name : CollectionName) : Result CollectionName :=
  if s.collections.contains name.qualified then
    .ok name
  else
    .error (noCollection name)

/- What an attempt is given to remember of a document. -/
def resultFor
    (attempt? : Option Attempt)
    (r : Request)
    (document : StoredDocument) : Option GetResult :=
  attempt?.map fun attempt =>
    { id := r.id
      cas := document.cas
      scope := r.collection.scope
      collection := r.collection.collection
      attempt
      content := document.payload }

/- Store the payload of a request under a fresh token. -/
def put
    (s : MemoryStore)
    (attempt? : Option Attempt)
    (r : Request) : StoreRecord × MemoryStore :=
  let document : StoredDocument :=
    ⟨r.payload?.getD [], s.nextCas⟩
  ({ id := r.id
     cas := document.cas
     result? := resultFor attempt? r document },
   { s.seed r.place document with
     nextCas := s.nextCas + 1 })

/- Drop the document of a request; this change has a token, too. -/
def drop
    (s : MemoryStore)
    (r : Request) : StoreRecord × MemoryStore :=
  ({ id := r.id, cas := s.nextCas },
   { s with
     documents := s.documents.erase r.place
     nextCas := s.nextCas + 1 })

/- The document of a request, provided that there is one. -/
def require
    (s : MemoryStore)
    (r : Request) : Result StoredDocument :=
  match s.document? r.place with
  | some document => .ok document
  | none => .error (noDocument r.id)

/- A token that a request shows has to be that of the document. -/
def checkToken
    (r : Request)
    (document : StoredDocument) : Result Unit :=
  if r.cas ≠ 0 ∧ r.cas ≠ document.cas then
    .error (tokenMismatch r.id)
  else
    .ok ()

/- Carry out a request, inside an attempt or outside of any. -/
def perform
    (s : MemoryStore)
    (attempt? : Option Attempt)
    (r : Request) : Result (StoreRecord × MemoryStore) :=
  match r.kind with
  | .exists =>
      match s.document? r.place with
      | some document =>
          .ok ({ id := r.id
                 cas := document.cas
                 isPresent := true }, s)
      | none => .ok ({ id := r.id }, s)
  | .get => do
      let document ← s.require r
      .ok
        ({ id := r.id
           cas := document.cas
           content? := some document.payload
           isPresent := true
           result? :=
             resultFor attempt? r document }, s)
  | .insert =>
      match s.document? r.place with
      | some _ => .error (documentTaken r.id)
      | none => .ok (s.put attempt? r)
  | .upsert => .ok (s.put attempt? r)
  | .replace => do
      let document ← s.require r
      checkToken r document
      return s.put attempt? r
  | .remove => do
      let document ← s.require r
      checkToken r document
      return s.drop r

------------------------------------------------------------
-- Laws of Changes
------------------------------------------------------------

/-
  A stored document is found at its place with the fresh
  token, the others as before.
-/
theorem document?_put
    (s : MemoryStore)
    (attempt? : Option Attempt)
    (r : Request)
    (place : Text) :
    (s.put attempt? r).2.document? place =
      if r.place = place then
        some ⟨r.payload?.getD [], s.nextCas⟩
      else
        s.document? place :=
  s.documents.get?_insert r.place place _

/- A dropped document is gone, the others are found as before. -/
theorem document?_drop
    (s : MemoryStore)
    (r : Request)
    (place : Text) :
    (s.drop r).2.document? place =
      if r.place = place then none else s.document? place :=
  s.documents.get?_erase r.place place

end MemoryStore

end DocumentMapper
