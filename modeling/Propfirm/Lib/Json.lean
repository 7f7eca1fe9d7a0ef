import Mathlib.Algebra.Ring.Int.Defs
import Mathlib.Algebra.Ring.Nat
import Mathlib.Tactic.DeriveEncodable
import Propfirm.Lib.Unary

/-!
# JSON values and their readers

A reader turns a value into a typed one, or says what is wrong with it. Of an object it asks for the fields
it needs and ignores the others. A field that may be left out may also be null. Every value has a linear form,
from which it can be built again.
-/

namespace Propfirm

inductive Json where
  | null
  | bool (b : Bool)
  | num (n : ℤ)
  | str (s : String)
  | arr (items : List Json)
  | obj (fields : List (String × Json))

namespace Json

inductive ReadError where
  | malformed (msg : String)
  | missingField (key : String)
  | invalidType (expected : String)
  | invalidValue (expected : String)
  | unknownVariant (variant : String)
deriving DecidableEq

abbrev Reader (α : Type) := Json → Except ReadError α

variable {α : Type} {reader : Reader α} {fields : List (String × Json)} {key : String} {j : Json} {a : α}

/-! ## Readers -/

def string : Reader String
  | .str s => .ok s
  | _ => .error (.invalidType "a string")

def boolean : Reader Bool
  | .bool b => .ok b
  | _ => .error (.invalidType "a boolean")

def u32 : Reader { n : ℕ // n < 2 ^ 32 }
  | .num n =>
      if h : 0 ≤ n ∧ n < 2 ^ 32 then .ok ⟨n.toNat, by omega⟩ else .error (.invalidValue "u32")
  | _ => .error (.invalidType "u32")

def i64 : Reader { n : ℤ // -2 ^ 63 ≤ n ∧ n < 2 ^ 63 }
  | .num n => if h : -2 ^ 63 ≤ n ∧ n < 2 ^ 63 then .ok ⟨n, h⟩ else .error (.invalidValue "i64")
  | _ => .error (.invalidType "i64")

/-- One of the cases of an enumeration, by its name. -/
def variant (cases : List (String × α)) : Reader α
  | .str s =>
      match cases.lookup s with
      | some a => .ok a
      | none => .error (.unknownVariant s)
  | _ => .error (.invalidType "an enumeration")

/-- A value that is written as a text. -/
def parsed (expected : String) (parse : String → Option α) : Reader α
  | .str s =>
      match parse s with
      | some a => .ok a
      | none => .error (.invalidValue expected)
  | _ => .error (.invalidType expected)

def array (reader : Reader α) : Reader (List α)
  | .arr items => items.mapM reader
  | _ => .error (.invalidType "an array")

def object : Reader (List (String × Json))
  | .obj fields => .ok fields
  | _ => .error (.invalidType "an object")

def required (key : String) (reader : Reader α) (fields : List (String × Json)) : Except ReadError α :=
  match fields.lookup key with
  | some j => reader j
  | none => .error (.missingField key)

def optional (key : String) (reader : Reader α) (fields : List (String × Json)) :
    Except ReadError (Option α) :=
  match fields.lookup key with
  | some .null | none => .ok none
  | some j => (reader j).map some

def ofOption (write : α → Json) : Option α → Json
  | none => .null
  | some a => write a

/-! ## What is read -/

theorem required_of_lookup (h : fields.lookup key = some j) : required key reader fields = reader j := by
  simp only [required, h]

/-- An optional value that is never written as null is read back. -/
theorem optional_ofOption {write : α → Json} {x : Option α} (h : fields.lookup key = some (ofOption write x))
    (hnull : ∀ a, write a ≠ .null) (hread : ∀ a, reader (write a) = .ok a) :
    optional key reader fields = .ok x := by
  cases x with
  | none => simp [optional, h, ofOption]
  | some a =>
      simp only [optional, h, ofOption]
      split
      · rename_i heq
        exact absurd (Option.some.inj heq) (hnull a)
      · rename_i heq
        cases heq
      · rename_i heq
        rw [← Option.some.inj heq, hread a]
        rfl

theorem u32_num {n : ℕ} (h : n < 2 ^ 32) : u32 (.num n) = .ok ⟨n, h⟩ := by
  have hrange : 0 ≤ (n : ℤ) ∧ (n : ℤ) < 2 ^ 32 := by omega
  simp only [u32, dif_pos hrange, Int.toNat_natCast]

theorem i64_num {n : ℤ} (h : -2 ^ 63 ≤ n ∧ n < 2 ^ 63) : i64 (.num n) = .ok ⟨n, h⟩ := by
  simp only [i64, dif_pos h]

theorem parsed_str {expected : String} {parse : String → Option α} {s : String} (h : parse s = some a) :
    parsed expected parse (.str s) = .ok a := by
  simp only [parsed, h]

theorem array_cons_error {item : Json} {items : List Json} {err : ReadError} (h : reader item = .error err) :
    array reader (.arr (item :: items)) = .error err := by
  rw [array, List.mapM_cons, h]
  rfl

/-! ## A linear form -/

/-- A value in the order in which a stack machine builds it. -/
inductive Token where
  | null
  | bool (b : Bool)
  | num (n : ℤ)
  | str (s : String)
  | arr (size : ℕ)
  | obj (keys : List String)
deriving Encodable

mutual

def tokens : Json → List Token
  | .null => [.null]
  | .bool b => [.bool b]
  | .num n => [.num n]
  | .str s => [.str s]
  | .arr items => itemTokens items ++ [.arr items.length]
  | .obj fields => fieldTokens fields ++ [.obj (fields.map Prod.fst)]

-- the last item first, so that the first is on top of the stack
def itemTokens : List Json → List Token
  | [] => []
  | j :: js => itemTokens js ++ tokens j

def fieldTokens : List (String × Json) → List Token
  | [] => []
  | (_, j) :: fields => fieldTokens fields ++ tokens j

end

def push (stack : List Json) : Token → List Json
  | .null => .null :: stack
  | .bool b => .bool b :: stack
  | .num n => .num n :: stack
  | .str s => .str s :: stack
  | .arr size => .arr (stack.take size) :: stack.drop size
  | .obj keys => .obj (keys.zip stack) :: stack.drop keys.length

def ofTokens (ts : List Token) : Option Json := (ts.foldl push []).head?

theorem zip_fields (fields : List (String × Json)) (stack : List Json) :
    (fields.map Prod.fst).zip (fields.map Prod.snd ++ stack) = fields := by
  induction fields with
  | nil => rfl
  | cons f fields ih => rw [List.map_cons, List.map_cons, List.cons_append, List.zip_cons_cons, ih]

mutual

theorem foldl_tokens (stack : List Json) : ∀ j, (tokens j).foldl push stack = j :: stack
  | .null | .bool _ | .num _ | .str _ => by simp [tokens, push]
  | .arr items => by simp [tokens, push, foldl_itemTokens stack items]
  | .obj fields => by
      have hdrop : (fields.map Prod.snd ++ stack).drop fields.length = stack :=
        List.drop_left' (by rw [List.length_map])
      simp [tokens, push, foldl_fieldTokens stack fields, zip_fields, hdrop]

theorem foldl_itemTokens (stack : List Json) : ∀ js, (itemTokens js).foldl push stack = js ++ stack
  | [] => rfl
  | j :: js => by
      rw [itemTokens, List.foldl_append, foldl_itemTokens stack js, foldl_tokens _ j, List.cons_append]

theorem foldl_fieldTokens (stack : List Json) :
    ∀ fields, (fieldTokens fields).foldl push stack = fields.map Prod.snd ++ stack
  | [] => rfl
  | (_, j) :: fields => by
      rw [fieldTokens, List.foldl_append, foldl_fieldTokens stack fields, foldl_tokens _ j, List.map_cons,
        List.cons_append]

end

theorem ofTokens_tokens (j : Json) : ofTokens (tokens j) = some j := by
  rw [ofTokens, foldl_tokens, List.head?_cons]

end Json

end Propfirm
