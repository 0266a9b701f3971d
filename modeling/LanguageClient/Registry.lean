import LanguageClient.Document.Language
import LanguageClient.Protocol.Registration
/-!
# Registered features

The features that a server has announced after the handshake, in the order of their ids.  An id
that is used again stands for the later registration.
-/

namespace LanguageClient

namespace Registration

/-- The documents that a registration is for; none when it is for every document. -/
def selector? (r : Registration) : Option DocumentSelector :=
  (r.registerOptions.bind (·.get? "documentSelector")).bind DocumentSelector.ofJson?

def appliesTo (r : Registration) (languageId uri : String) : Bool :=
  r.selector?.all (·.selects languageId uri)

end Registration

/-- The registrations that hold, ordered by id. -/
structure CapabilityRegistry where
  registrations : List Registration := []
  deriving Inhabited

namespace CapabilityRegistry

/-- Puts a registration into a list ordered by id, in the place of one with its id. -/
def insert (r : Registration) : List Registration → List Registration
  | [] => [r]
  | q :: rest =>
    if r.id = q.id then r :: rest
    else if r.id < q.id then r :: q :: rest
    else q :: insert r rest

def register (c : CapabilityRegistry) (rs : List Registration) : CapabilityRegistry :=
  ⟨rs.foldl (fun held r => insert r held) c.registrations⟩

/-- Takes registrations away by id; an unknown id changes nothing. -/
def unregister (c : CapabilityRegistry) (us : List Unregistration) : CapabilityRegistry :=
  ⟨us.foldl (fun held u => held.filter (·.id ≠ u.id)) c.registrations⟩

def isRegistered (c : CapabilityRegistry) (method : String) : Bool :=
  c.registrations.any (·.method == method)

/-- Whether a feature is registered for a document. -/
def covers (c : CapabilityRegistry) (method languageId uri : String) : Bool :=
  c.registrations.any fun r => r.method == method && r.appliesTo languageId uri

def clear (_ : CapabilityRegistry) : CapabilityRegistry :=
  {}

end CapabilityRegistry

end LanguageClient
