import Blueprint.Number.Shortest
import Blueprint.Text.Quoted

/-!
# JSON values

The values of a JSON text. Whole numbers are exact, other numbers are binary64 values, and an
object lists its members in the order in which their keys first occur.

- `Json.member?`: the value of an object's member.
- `Json.depth`: how deeply a value is nested.
- `Json.spelled`, `Json.plain`, `Json.typeName`: how a message shows a value, quoted or as it is,
  and what it calls the type of a value.
-/

namespace Blueprint

/-- A JSON value. -/
inductive Json where
  | null
  | bool (value : Bool)
  | int (value : Int)
  | float (value : Binary64)
  | str (value : String)
  | arr (items : List Json)
  | obj (members : List (String × Json))

namespace Json

instance : Inhabited Json := ⟨null⟩

/-! ## Members -/

/-- The value at a key in a list of members. -/
def memberOf? (key : String) : List (String × Json) → Option Json
  | [] => none
  | (k, v) :: rest => if k = key then some v else memberOf? key rest

/-- The value of a member of an object; nothing for any other value. -/
def member? (key : String) : Json → Option Json
  | obj members => memberOf? key members
  | _ => none

/-- Set a member: a new key goes to the end, a known one keeps its place. -/
def setMember (key : String) (value : Json) : List (String × Json) → List (String × Json)
  | [] => [(key, value)]
  | (k, v) :: rest => if k = key then (k, value) :: rest else (k, v) :: setMember key value rest

/-- An object of the members that have a value. -/
def ofFields (fields : List (String × Option Json)) : Json :=
  obj (fields.filterMap fun f => f.2.map fun v => (f.1, v))

theorem memberOf?_setMember_self (key : String) (value : Json) (ms : List (String × Json)) :
    memberOf? key (setMember key value ms) = some value := by
  induction ms with
  | nil => simp [setMember, memberOf?]
  | cons m ms ih =>
    obtain ⟨k, v⟩ := m
    by_cases h : k = key <;> simp [setMember, memberOf?, h, ih]

theorem memberOf?_setMember_of_ne {key other : String} (value : Json) (ms : List (String × Json))
    (h : other ≠ key) : memberOf? other (setMember key value ms) = memberOf? other ms := by
  induction ms with
  | nil => simp [setMember, memberOf?, Ne.symm h]
  | cons m ms ih =>
    obtain ⟨k, v⟩ := m
    by_cases hk : k = key
    · subst hk; simp [setMember, memberOf?, Ne.symm h]
    · by_cases ho : k = other <;> simp [setMember, memberOf?, hk, ho, ih, h]

/-! ## Depth -/

mutual

/-- The number of values nested in one another, this one included. -/
def depth : Json → Nat
  | arr items => depthItems items + 1
  | obj members => depthMembers members + 1
  | _ => 1

/-- The greatest depth in a list of values. -/
def depthItems : List Json → Nat
  | [] => 0
  | v :: rest => max (depth v) (depthItems rest)

/-- The greatest depth in a list of members. -/
def depthMembers : List (String × Json) → Nat
  | [] => 0
  | (_, v) :: rest => max (depth v) (depthMembers rest)

end

/-! ## Values in messages -/

mutual

/-- A value as a message shows it, texts in quotes. -/
def spelled : Json → String
  | null => "None"
  | bool true => "True"
  | bool false => "False"
  | int n => toString n
  | float x => x.text
  | str s => Text.quoted s
  | arr items => "[" ++ ", ".intercalate (spelledItems items) ++ "]"
  | obj members => "\x7b" ++ ", ".intercalate (spelledMembers members) ++ "\x7d"

/-- The elements of a list as a message shows them. -/
def spelledItems : List Json → List String
  | [] => []
  | v :: rest => spelled v :: spelledItems rest

/-- The members of an object as a message shows them. -/
def spelledMembers : List (String × Json) → List String
  | [] => []
  | (k, v) :: rest => (Text.quoted k ++ ": " ++ spelled v) :: spelledMembers rest

end

/-- A value as a message shows it, except that a text stands without quotes. -/
def plain : Json → String
  | str s => s
  | v => spelled v

/-- What a value is called in messages about its type. -/
def typeName : Json → String
  | null => "NoneType"
  | bool _ => "bool"
  | int _ => "int"
  | float _ => "float"
  | str _ => "str"
  | arr _ => "list"
  | obj _ => "dict"

end Json

end Blueprint
