import RowMapper.Number.Floating

/-!
# JSON documents

A number is an integer or a floating point number, by how it was written. An object has its members
in the order of their names, each name once.
-/

namespace RowMapper

/-- A JSON document. -/
inductive Json where
  | null
  | bool (b : Bool)
  | integer (n : Int)
  | float (x : Floating .double)
  | string (s : String)
  | array (items : List Json)
  | object (members : List (String × Json))

namespace Json

instance : Inhabited Json := ⟨null⟩

mutual

/-- Equality of documents is decidable. -/
def decEq : (a b : Json) → Decidable (a = b)
  | null, null => isTrue rfl
  | bool a, bool b =>
    if h : a = b then isTrue (h ▸ rfl) else isFalse (fun e => by cases e; exact h rfl)
  | integer a, integer b =>
    if h : a = b then isTrue (h ▸ rfl) else isFalse (fun e => by cases e; exact h rfl)
  | float a, float b =>
    if h : a = b then isTrue (h ▸ rfl) else isFalse (fun e => by cases e; exact h rfl)
  | string a, string b =>
    if h : a = b then isTrue (h ▸ rfl) else isFalse (fun e => by cases e; exact h rfl)
  | array a, array b =>
    match decEqItems a b with
    | isTrue h => isTrue (h ▸ rfl)
    | isFalse h => isFalse (fun e => by cases e; exact h rfl)
  | object a, object b =>
    match decEqMembers a b with
    | isTrue h => isTrue (h ▸ rfl)
    | isFalse h => isFalse (fun e => by cases e; exact h rfl)
  | null, bool _ | null, integer _ | null, float _ | null, string _ | null, array _
  | null, object _ | bool _, null | bool _, integer _ | bool _, float _ | bool _, string _
  | bool _, array _ | bool _, object _ | integer _, null | integer _, bool _ | integer _, float _
  | integer _, string _ | integer _, array _ | integer _, object _ | float _, null
  | float _, bool _ | float _, integer _ | float _, string _ | float _, array _ | float _, object _
  | string _, null | string _, bool _ | string _, integer _ | string _, float _ | string _, array _
  | string _, object _ | array _, null | array _, bool _ | array _, integer _ | array _, float _
  | array _, string _ | array _, object _ | object _, null | object _, bool _ | object _, integer _
  | object _, float _ | object _, string _ | object _, array _ => isFalse (by simp)

/-- Equality of the items of arrays is decidable. -/
def decEqItems : (a b : List Json) → Decidable (a = b)
  | [], [] => isTrue rfl
  | a :: as, b :: bs =>
    match decEq a b, decEqItems as bs with
    | isTrue h, isTrue hs => isTrue (h ▸ hs ▸ rfl)
    | isFalse h, _ => isFalse (fun e => by cases e; exact h rfl)
    | _, isFalse h => isFalse (fun e => by cases e; exact h rfl)
  | [], _ :: _ | _ :: _, [] => isFalse (by simp)

/-- Equality of the members of objects is decidable. -/
def decEqMembers : (a b : List (String × Json)) → Decidable (a = b)
  | [], [] => isTrue rfl
  | (m, a) :: as, (n, b) :: bs =>
    if hn : m = n then
      match decEq a b, decEqMembers as bs with
      | isTrue h, isTrue hs => isTrue (hn ▸ h ▸ hs ▸ rfl)
      | isFalse h, _ => isFalse (fun e => by cases e; exact h rfl)
      | _, isFalse h => isFalse (fun e => by cases e; exact h rfl)
    else isFalse (fun e => by cases e; exact hn rfl)
  | [], _ :: _ | _ :: _, [] => isFalse (by simp)

end

instance : DecidableEq Json := decEq

/-- Puts a member into its place in the order of names; a member of that name is replaced. -/
def insertMember (name : String) (item : Json) : List (String × Json) → List (String × Json)
  | [] => [(name, item)]
  | (n, j) :: rest =>
    if name = n then (name, item) :: rest
    else if name < n then (name, item) :: (n, j) :: rest
    else (n, j) :: insertMember name item rest

/-- The object of members in the order of a text: of members with one name the last one counts. -/
def ofMembers (members : List (String × Json)) : Json :=
  object (members.foldl (fun acc m => insertMember m.1 m.2 acc) [])

/-- The member of a name in an object. -/
def member? (name : String) : Json → Option Json
  | object members => members.lookup name
  | _ => none

end Json

end RowMapper
