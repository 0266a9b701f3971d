import LanguageClient.Json.Payload
/-!
# Registrations

A server may announce features after the handshake, each under an id, and take them back by id.
-/

namespace LanguageClient

/-- A feature that a server announces. -/
structure Registration where
  id : String
  method : String
  registerOptions : Option Json := none
  deriving DecidableEq, Inhabited

instance : Payload Registration where
  toJson r := .object ([("id", toJson r.id), ("method", toJson r.method)]
    ++ Json.present "registerOptions" r.registerOptions)
  ofJson := Json.readRecord (do
    let id ← .field "id"
    let method ← .field "method"
    let registerOptions ← .optional "registerOptions"
    return { id, method, registerOptions }) "Registration"

/-- The parameters of `client/registerCapability`. -/
structure RegistrationParams where
  registrations : List Registration
  deriving DecidableEq, Inhabited

instance : Payload RegistrationParams where
  toJson p := .object [("registrations", toJson p.registrations)]
  ofJson := Json.readRecord (do
    let registrations ← .field "registrations"
    return { registrations }) "RegistrationParams"

/-- A feature that a server takes back. -/
structure Unregistration where
  id : String
  method : String
  deriving DecidableEq, Repr, Inhabited

instance : Payload Unregistration where
  toJson u := .object [("id", toJson u.id), ("method", toJson u.method)]
  ofJson := Json.readRecord (do
    let id ← .field "id"
    let method ← .field "method"
    return { id, method }) "Unregistration"

/-- The parameters of `client/unregisterCapability`. -/
structure UnregistrationParams where
  unregistrations : List Unregistration
  deriving DecidableEq, Repr, Inhabited

instance : Payload UnregistrationParams where
  -- the spelling is the one of the protocol
  toJson p := .object [("unregisterations", toJson p.unregistrations)]
  ofJson := Json.readRecord (do
    let unregistrations ← .field "unregisterations"
    return { unregistrations }) "UnregistrationParams"

end LanguageClient
