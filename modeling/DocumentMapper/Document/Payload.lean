import DocumentMapper.Document.Basic
import DocumentMapper.Json.Parser
import DocumentMapper.Json.Printer
import DocumentMapper.Result

/-
  Payloads: documents as the bytes a store keeps.

  A payload is the JSON text of the attributes. Reading a
  payload puts its members into a document that may already
  have some; on failure the document stays as it was.

  Key definitions include:
    * `PayloadFault`
    * `Document.toPayload`
    * `Document.absorb`
-/

namespace DocumentMapper

/- Why a payload could not be written or read. -/
inductive PayloadFault where
  | notPrintable
  | empty (id : Text)
  | malformed (id : Text)
  | notObject (kind : Text)
  deriving DecidableEq, Repr

namespace PayloadFault

/- The wording of a fault. -/
def message : PayloadFault → Text
  | .notPrintable =>
      Text.lit "Failed to serialize document: " ++
        Text.lit "invalid UTF-8 in a key or string"
  | .empty id =>
      Text.lit "Empty payload for document " ++ Text.quoted id
  | .malformed id =>
      Text.lit "Malformed JSON payload for document " ++
        Text.quoted id
  | .notObject kind =>
      Text.lit "Expected JSON object payload, got " ++ kind

/- Writing fails with a mapping error, reading with a decode error. -/
def toError
    (fault : PayloadFault) : Error :=
  match fault with
  | .notPrintable => .mapping fault.message
  | _ => .decode fault.message

end PayloadFault

namespace Document

/- The bytes of a document. -/
def toPayload
    (d : Document) : Result Text :=
  match d.content.toJson.print? with
  | some payload => .ok payload
  | none => .error PayloadFault.notPrintable.toError

/- The members of a payload, in order. -/
def payloadMembers
    (id payload : Text) :
    Except PayloadFault (List (Text × Json)) :=
  if payload = [] then
    .error (.empty id)
  else
    match Json.parse? payload with
    | none => .error (.malformed id)
    | some (.object members) => .ok members
    | some value => .error (.notObject value.kind)

/- Put the members of a payload into a document. -/
def absorb
    (d : Document)
    (payload : Text) : Result Document :=
  match payloadMembers d.id payload with
  | .ok members =>
      .ok { d with content := d.content.merge members }
  | .error fault => .error fault.toError

end Document

end DocumentMapper
