import VAuth.Format.Cbor

/-!
# Canonical CBOR

The canonical form that CTAP2 asks for: shortest heads, which every encoded item has, no tags, and
the keys of every map in order, by major type, then by length, then by their bytes.
-/

namespace Cbor

/-- The major type. -/
def major : Cbor → Nat
  | uint _ => 0
  | negative _ => 1
  | bytes _ => 2
  | text _ => 3
  | array _ => 4
  | map _ => 5
  | tag _ => 6
  | special _ _ => 7

def keyBefore (a b : Cbor) : Bool :=
  a.major < b.major || a.major == b.major && (a.encode.length < b.encode.length ||
      a.encode.length == b.encode.length && decide (a.encode < b.encode))

/-- The keys among the elements of a map. -/
def keys : List Cbor → List Cbor
  | key :: _ :: rest => key :: keys rest
  | _ => []

/-- Every key has a value. -/
def paired : List Cbor → Bool
  | [] => true
  | [_] => false
  | _ :: _ :: rest => paired rest

theorem even_of_paired : ∀ {es : List Cbor}, paired es = true → es.length % 2 = 0
  | [], _ => rfl
  | [_], h => nomatch h
  | _ :: _ :: rest, h => by
      have hRest : rest.length % 2 = 0 := even_of_paired h
      simp only [List.length_cons]
      omega

mutual

/-- A map has a value for every key and its keys are in order, there are no tags, and of major
type 7 only the simple values of one byte. -/
def ordered : Cbor → Bool
  | array elements => allOrdered elements
  | map elements => paired elements &&
      decide ((keys elements).Pairwise fun a b => keyBefore a b = true) && allOrdered elements
  | tag _ => false
  | special info argument => info < 24 && argument == info
  | _ => true

def allOrdered : List Cbor → Bool
  | [] => true
  | element :: rest => element.ordered && allOrdered rest

end

structure Canonical (e : Cbor) : Prop where
  wellFormed : e.WellFormed
  ordered : e.ordered = true

theorem isTag_of_ordered {e : Cbor} (h : e.ordered = true) : e.isTag = false := by
  cases e with
  | tag n => cases h
  | _ => rfl

theorem counted_of_ordered {es : List Cbor} (h : allOrdered es = true) :
    counted es = es.length := by
  induction es with
  | nil => rfl
  | cons e es ih =>
    obtain ⟨hElement, hRest⟩ := Bool.and_eq_true_iff.mp h
    rw [counted_cons es (isTag_of_ordered hElement), ih hRest, List.length_cons]

theorem Canonical.decode_encode {e : Cbor} (h : e.Canonical) : decode e.encode = some e :=
  Cbor.decode_encode h.wellFormed (isTag_of_ordered h.ordered)

end Cbor
