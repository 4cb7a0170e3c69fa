import VAuth.Exception

/-!
# JSON documents

The values of `nlohmann::json` that the store writes and reads, with the accessors of
that library it uses. Objects list their members in the order of the `std::map` behind
them. Strings are byte strings, as in the source. Of a number with a fraction or an
exponent only the integer it is converted to is kept.
-/

namespace VAuth.Store

inductive Json where
  | null
  | bool (b : Bool)
  | num (n : Int)
  | real (integerPart : Int)
  | str (s : Bytes)
  | arr (elements : List Json)
  | obj (members : List (String × Json))

namespace Json

mutual

/-- Structural equality, decided along the nesting. -/
def decEq : (a b : Json) → Decidable (a = b)
  | null, b => by cases b <;> first | exact isTrue rfl | exact isFalse (by simp)
  | bool x, b => by
      cases b with
      | bool y => exact decidable_of_iff (x = y) (by simp)
      | _ => exact isFalse (by simp)
  | num x, b => by
      cases b with
      | num y => exact decidable_of_iff (x = y) (by simp)
      | _ => exact isFalse (by simp)
  | real x, b => by
      cases b with
      | real y => exact decidable_of_iff (x = y) (by simp)
      | _ => exact isFalse (by simp)
  | str x, b => by
      cases b with
      | str y => exact decidable_of_iff (x = y) (by simp)
      | _ => exact isFalse (by simp)
  | arr xs, b => by
      cases b with
      | arr ys => exact @decidable_of_iff _ (xs = ys) (by simp) (decEqElements xs ys)
      | _ => exact isFalse (by simp)
  | obj xs, b => by
      cases b with
      | obj ys => exact @decidable_of_iff _ (xs = ys) (by simp) (decEqMembers xs ys)
      | _ => exact isFalse (by simp)

def decEqElements : (xs ys : List Json) → Decidable (xs = ys)
  | [], [] => isTrue rfl
  | [], _ :: _ => isFalse (by simp)
  | _ :: _, [] => isFalse (by simp)
  | x :: xs, y :: ys =>
    match decEq x y, decEqElements xs ys with
    | isTrue hx, isTrue hxs => isTrue (by rw [hx, hxs])
    | isFalse hx, _ => isFalse fun h => hx (List.cons.inj h).1
    | _, isFalse hxs => isFalse fun h => hxs (List.cons.inj h).2

def decEqMembers : (xs ys : List (String × Json)) → Decidable (xs = ys)
  | [], [] => isTrue rfl
  | [], _ :: _ => isFalse (by simp)
  | _ :: _, [] => isFalse (by simp)
  | (j, x) :: xs, (k, y) :: ys =>
    match decEq x y, decEqMembers xs ys with
    | isTrue hx, isTrue hxs => decidable_of_iff (j = k) (by simp [hx, hxs])
    | isFalse hx, _ => isFalse fun h => hx (Prod.mk.inj (List.cons.inj h).1).2
    | _, isFalse hxs => isFalse fun h => hxs (List.cons.inj h).2

end

instance : DecidableEq Json := decEq

/-- `is_number_unsigned`. -/
def isNumberUnsigned : Json → Bool
  | num n => 0 ≤ n
  | _ => false

/-- `get<uint64_t>` of a number that is unsigned. -/
def unsigned : Json → Nat
  | num n => n.toNat
  | _ => 0

/-- `at`. -/
def field (entry : Json) (name : String) : Except Exn Json :=
  match entry with
  | obj members =>
    match members.lookup name with
    | some value => .ok value
    | none => .error (.jsonError ("key '" ++ name ++ "' not found"))
  | _ => .error (.jsonError "cannot use at()")

/-- `get<std::string>`. -/
def getString : Json → Except Exn Bytes
  | str s => .ok s
  | _ => .error (.jsonError "type must be string")

/-- `get<int>`: booleans and every kind of number are converted. -/
def getInt : Json → Except Exn Int32
  | num n => .ok (Int32.ofInt n)
  | real n => .ok (Int32.ofInt n)
  | bool b => .ok (if b then 1 else 0)
  | _ => .error (.jsonError "type must be number")

/-! ## Writing -/

/-- The bytes of an ASCII text. -/
def ascii (s : String) : Bytes := s.toList.map fun c => UInt8.ofNat c.toNat

/-- `dump_escaped` for one byte of valid UTF-8. -/
def escape (b : UInt8) : Bytes :=
  if b = 34 then ascii "\\\""
  else if b = 92 then ascii "\\\\"
  else if b = 8 then ascii "\\b"
  else if b = 12 then ascii "\\f"
  else if b = 10 then ascii "\\n"
  else if b = 13 then ascii "\\r"
  else if b = 9 then ascii "\\t"
  else if b < 32 then ascii "\\u00" ++ ascii (if b < 16 then "0" else "1") ++
    [if b &&& 15 < 10 then 48 + (b &&& 15) else 87 + (b &&& 15)]
  else [b]

def quote (s : Bytes) : Bytes := 34 :: s.flatMap escape ++ [34]

def decimal (n : Int) : Bytes :=
  (if n < 0 then ascii "-" else []) ++ (Nat.toDigits 10 n.natAbs).map fun c => UInt8.ofNat c.toNat

mutual

/-- The compact text that `nlohmann::json::dump` writes. -/
def render : Json → Bytes
  | null => ascii "null"
  | bool b => ascii (if b then "true" else "false")
  | num n => decimal n
  | real n => decimal n ++ ascii ".0"
  | str s => quote s
  | arr [] => ascii "[]"
  | arr (x :: xs) => 91 :: render x ++ renderElements xs ++ [93]
  | obj [] => [123, 125]
  | obj ((k, x) :: xs) => 123 :: quote (ascii k) ++ 58 :: render x ++ renderMembers xs ++ [125]

def renderElements : List Json → Bytes
  | [] => []
  | x :: xs => 44 :: render x ++ renderElements xs

def renderMembers : List (String × Json) → Bytes
  | [] => []
  | (k, x) :: xs => 44 :: quote (ascii k) ++ 58 :: render x ++ renderMembers xs

end

end Json

end VAuth.Store
