import ApiGateway.Json.Value

/-!
# The pet repository

An in-memory store of pets by ascending id.  A created pet gets the next free id.

Main definitions:

- `Repository.initial`: the store with its first two pets.
- `Repository.list`, `Repository.find?`, `Repository.create`: its operations, which
  answer with JSON documents.
-/

namespace ApiGateway
namespace PetStore

/-- A pet with its id. -/
structure Pet where
  id : Int64
  name : Bytes
deriving DecidableEq, Repr

namespace Pet

/-- The document of a pet. -/
def value (pet : Pet) : Json.Value :=
  Json.Value.ofMembers [
    (Bytes.ofString "id", Json.Value.ofInt pet.id),
    (Bytes.ofString "name", Json.Value.ofText pet.name)]

end Pet

/-- The pets in ascending order of their ids, and the next free id. -/
structure Repository where
  pets : List Pet
  nextId : Int64
deriving DecidableEq, Repr

namespace Repository

/-- The store with its first two pets. -/
def initial : Repository where
  pets := [⟨1, Bytes.ofString "Rex"⟩, ⟨2, Bytes.ofString "Tom"⟩]
  nextId := 3

/-- Puts a pet in its place by id; a pet of the same id is replaced. -/
def insertPet (pet : Pet) : List Pet → List Pet
  | [] => [pet]
  | other :: rest =>
    if pet.id < other.id then pet :: other :: rest
    else if pet.id = other.id then pet :: rest
    else other :: insertPet pet rest

/-- The documents of all pets. -/
def list (r : Repository) : Json.Value :=
  Json.Value.ofItems (r.pets.map Pet.value)

/-- The document of the pet with that id. -/
def find? (r : Repository) (id : Int64) : Option Json.Value :=
  (r.pets.find? fun pet => pet.id == id).map Pet.value

/-- Stores a pet under the next free id, and answers with its document. -/
def create (r : Repository) (name : Bytes) : Json.Value × Repository :=
  let pet : Pet := ⟨r.nextId, name⟩
  (pet.value, { pets := insertPet pet r.pets, nextId := r.nextId + 1 })

end Repository
end PetStore
end ApiGateway
