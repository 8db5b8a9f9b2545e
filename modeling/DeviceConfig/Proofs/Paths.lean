/-
Values by their paths.

A path is a list of keys, and it leads from an object into one of its members.  A list is one value:
no path leads into it.

What a document shows is found by its paths, and a value of one path can be compared with the value
of the same path in another document.
-/
import DeviceConfig.Proofs.WellFormed

namespace DeviceConfig

namespace Json

/-- What is found at the end of a path. -/
def under? : List String → Json → Option Json
  | [], v => some v
  | key :: rest, v => (v.object?.bind fun o => Object.field? o key).bind (under? rest)

theorem under?_object (key : String) (rest : List String) (o : Object) :
    (Json.object o).under? (key :: rest) = (Object.field? o key).bind (under? rest) := rfl

/-- No path leads into a value that is not an object. -/
theorem under?_of_object?_none {v : Json} (h : v.object? = none) (key : String)
    (rest : List String) : v.under? (key :: rest) = none := by
  rw [under?, h]
  rfl

/-- The members that are shown, and no others, are found under their keys. -/
theorem under?_ofOptions {members : List (String × Option Json)} {key : String}
    {found : Option Json} (hkeys : (members.map Prod.fst).Nodup) (h : (key, found) ∈ members)
    (rest : List String) :
    (Json.object (Object.ofOptions members)).under? (key :: rest) = found.bind (under? rest) := by
  rw [under?_object, Object.field?_ofOptions hkeys h]

theorem under?_ofMembers {members : List (String × Json)} {key : String} {v : Json}
    (hkeys : (members.map Prod.fst).Nodup) (h : (key, v) ∈ members) (rest : List String) :
    (Json.ofMembers members).under? (key :: rest) = v.under? rest := by
  rw [ofMembers, under?_object, Object.field?_ofList_of_mem hkeys h]
  rfl

end Json

/-- The member of the common section under a key. -/
theorem Common.under?_member {a : Common} {key : String} {found : Option Json}
    (h : (key, found) ∈ a.members) (rest : List String) :
    a.toJson.under? (key :: rest) = found.bind (Json.under? rest) :=
  Json.under?_ofOptions a.members_nodup h rest

namespace Document

theorem under?_common (d : Document) (path : List String) :
    d.toJson.under? ("common_settings" :: path) = d.common.toJson.under? path :=
  Json.under?_ofMembers d.members_nodup d.common_mem path

end Document

end DeviceConfig
