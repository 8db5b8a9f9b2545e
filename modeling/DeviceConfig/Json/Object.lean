/-
JSON objects.

Members are kept in the order of their keys, which is the order of code points, so that
whoever walks an object sees that order and not the order in which it was written.
-/
import DeviceConfig.Json.Value

namespace DeviceConfig

/-- The members of a JSON object. -/
abbrev Object := List (String × Json)

namespace Object

/-- The keys ascend, so none of them repeats. -/
def Ascending (o : Object) : Prop := o.Pairwise fun a b => a.1 < b.1

/-- The value under a key. -/
def field? (o : Object) (key : String) : Option Json := o.lookup key

/-- The key has a value. -/
def has (o : Object) (key : String) : Bool := (field? o key).isSome

/-- The object with a value put under a key, replacing any that was there. -/
def insert (key : String) (value : Json) : Object → Object
  | [] => [(key, value)]
  | (k, v) :: rest =>
    if key < k then (key, value) :: (k, v) :: rest
    else if key = k then (key, value) :: rest
    else (k, v) :: insert key value rest

/-- The object without a key. -/
def erase (key : String) (o : Object) : Object := o.filter fun member => member.1 != key

/-- The object without any of some keys. -/
def eraseAll (keys : List String) (o : Object) : Object :=
  keys.foldl (fun o key => erase key o) o

/-- The object of some members; where a key repeats, the last one counts. -/
def ofList (members : List (String × Json)) : Object :=
  members.foldl (fun o member => insert member.1 member.2 o) []

/-- The object of the members that are present. -/
def ofOptions (members : List (String × Option Json)) : Object :=
  ofList (members.filterMap fun member => member.2.map (member.1, ·))

/-! ### Fields of a kind -/

def double? (o : Object) (key : String) : Option Double := (field? o key).bind Json.double?

def word? (o : Object) (key : String) : Option UInt32 := (field? o key).bind Json.word?

def string? (o : Object) (key : String) : Option String := (field? o key).bind Json.string?

def bool? (o : Object) (key : String) : Option Bool := (field? o key).bind Json.bool?

def array? (o : Object) (key : String) : Option (List Json) := (field? o key).bind Json.array?

end Object

/-- The members of an object value. -/
def Json.object? : Json → Option Object
  | .object members => some members
  | _ => none

/-- The members of a field that holds an object. -/
def Object.object? (o : Object) (key : String) : Option Object :=
  (Object.field? o key).bind Json.object?

namespace Json

/-- The object value of some members. -/
def ofMembers (members : List (String × Json)) : Json := .object (Object.ofList members)

mutual

/-- Every object in the value has ascending keys. -/
def Sorted : Json → Prop
  | .array items => SortedItems items
  | .object members => Object.Ascending members ∧ SortedMembers members
  | _ => True

/-- Every object in a list of values has ascending keys. -/
def SortedItems : List Json → Prop
  | [] => True
  | x :: xs => x.Sorted ∧ SortedItems xs

/-- Every object under a list of keys has ascending keys. -/
def SortedMembers : List (String × Json) → Prop
  | [] => True
  | (_, x) :: xs => x.Sorted ∧ SortedMembers xs

end

end Json

end DeviceConfig
