import Mathlib.Data.List.Basic

/-! JSON documents with decidable equality. The fields of an object are listed in the order of the
underlying map, so that equal documents are equal terms. -/

inductive Json
  | null
  | bool (b : Bool)
  | num (n : Int)
  | str (s : String)
  | arr (items : List Json)
  | obj (fields : List (String × Json))
  deriving Repr, Inhabited

namespace Json

mutual

def beq : Json → Json → Bool
  | .null, .null => true
  | .bool a, .bool b => a == b
  | .num a, .num b => a == b
  | .str a, .str b => a == b
  | .arr xs, .arr ys => beqItems xs ys
  | .obj xs, .obj ys => beqFields xs ys
  | _, _ => false

def beqItems : List Json → List Json → Bool
  | [], [] => true
  | x :: xs, y :: ys => beq x y && beqItems xs ys
  | _, _ => false

def beqFields : List (String × Json) → List (String × Json) → Bool
  | [], [] => true
  | (k, x) :: xs, (l, y) :: ys => k == l && beq x y && beqFields xs ys
  | _, _ => false

end

mutual

theorem beq_iff : ∀ x y : Json, beq x y = true ↔ x = y
  | .arr xs, y => by cases y <;> simp [beq, beqItems_iff xs]
  | .obj xs, y => by cases y <;> simp [beq, beqFields_iff xs]
  | .null, y => by cases y <;> simp [beq]
  | .bool _, y => by cases y <;> simp [beq]
  | .num _, y => by cases y <;> simp [beq]
  | .str _, y => by cases y <;> simp [beq]

theorem beqItems_iff : ∀ xs ys : List Json, beqItems xs ys = true ↔ xs = ys
  | [], ys => by cases ys <;> simp [beqItems]
  | x :: xs, ys => by cases ys <;> simp [beqItems, beq_iff x, beqItems_iff xs]

theorem beqFields_iff : ∀ xs ys : List (String × Json), beqFields xs ys = true ↔ xs = ys
  | [], ys => by cases ys <;> simp [beqFields]
  | (k, x) :: xs, ys => by
    cases ys with
    | nil => simp [beqFields]
    | cons y ys => simp [beqFields, beq_iff x, beqFields_iff xs, Prod.ext_iff, and_assoc]

end

instance : DecidableEq Json := fun x y => decidable_of_iff _ (beq_iff x y)

def lookupField (key : String) : List (String × Json) → Option Json
  | [] => none
  | (k, v) :: rest => if key = k then some v else lookupField key rest

def assignField (key : String) (v : Json) : List (String × Json) → List (String × Json)
  | [] => [(key, v)]
  | (k, w) :: rest => if key = k then (k, v) :: rest else (k, w) :: assignField key v rest

def field? (key : String) : Json → Option Json
  | .obj fields => lookupField key fields
  | _ => none

def item? (i : Nat) : Json → Option Json
  | .arr items => items[i]?
  | _ => none

/-- `value[key] = v` on an object: replace the field, or append it. -/
def setField : Json → String → Json → Json
  | .obj fields, key, v => .obj (assignField key v fields)
  | j, _, _ => j

@[simp] theorem field?_obj_cons (key k : String) (v : Json) (rest : List (String × Json)) :
    field? key (.obj ((k, v) :: rest)) =
      if key = k then some v else field? key (.obj rest) := rfl

@[simp] theorem field?_obj_nil (key : String) : field? key (.obj []) = none := rfl

@[simp] theorem item?_arr (i : Nat) (items : List Json) : item? i (.arr items) = items[i]? := rfl

example : Json.obj [("a", .num 1), ("b", .arr [.str "x"])] ≠
    Json.obj [("a", .num 1), ("b", .arr [.str "y"])] := by decide

end Json
