import VAuth.Ctap.Request
import VAuth.Format.Members

/-!
# Requests without a cursor

A reader that takes one element off the cursor is a decoder of that element (`takes`); reading a
map is decoding its members, and reading an array its elements. `IsRecord` says what a map must
contain to be a given record. It leaves open how the contents of a container divide into items:
for the cursor every element is one, while a data item of CBOR is an element with the tags in
front of it. What is decoded from a map is the record that the map is in the cursor's view
(`asRecord_eq`).
-/

namespace VAuth.Ctap

open Store Format

/-! ## Readers of one element -/

/-- The reader that decodes one element. -/
def takes {α : Type} (decode : Cbor → Option α) : Reader α
  | c :: rest => (decode c).map (·, rest)
  | [] => none

def asText (maxLength : Nat) : Cbor → Option Bytes
  | .text contents => if contents.length > maxLength then none else some contents
  | _ => none

def asBytes (maxLength : Nat) : Cbor → Option Bytes
  | .bytes contents => if contents.length > maxLength then none else some contents
  | _ => none

def asUint : Cbor → Option UInt64
  | .uint n => some n
  | _ => none

def asInt : Cbor → Option Int64
  | .uint n => some n.toInt64
  | .negative n => some (~~~n).toInt64
  | _ => none

def asBool : Cbor → Option Bool
  | .special 20 _ => some false
  | .special 21 _ => some true
  | _ => none

theorem readText_eq (maxLength : Nat) : readText maxLength = takes (asText maxLength) := by
  funext elements
  cases elements with
  | nil => rfl
  | cons c rest =>
    cases c with
    | text contents =>
      show (if contents.length > maxLength then _ else _ : Reader Bytes) _ = _
      simp only [takes, asText]
      split <;> rfl
    | _ => rfl

theorem readBytes_eq (maxLength : Nat) : readBytes maxLength = takes (asBytes maxLength) := by
  funext elements
  cases elements with
  | nil => rfl
  | cons c rest =>
    cases c with
    | bytes contents =>
      show (if contents.length > maxLength then _ else _ : Reader Bytes) _ = _
      simp only [takes, asBytes]
      split <;> rfl
    | _ => rfl

theorem readUint_eq : readUint = takes asUint := by
  funext elements
  cases elements with
  | nil => rfl
  | cons c rest => cases c <;> rfl

theorem readInt_eq : readInt = takes asInt := by
  funext elements
  cases elements with
  | nil => rfl
  | cons c rest => cases c <;> rfl

theorem readBool_eq : readBool = takes asBool := by
  funext elements
  cases elements with
  | nil => rfl
  | cons c rest =>
    cases c with
    | special info argument =>
      by_cases hFalse : info = 20
      · subst hFalse
        rfl
      by_cases hTrue : info = 21
      · subst hTrue
        rfl
      simp [readBool, takes, asBool, hFalse, hTrue, get, getThe, MonadStateOf.get, StateT.get,
        bind, StateT.bind, failure, StateT.failure, pure]
    | _ => rfl

theorem skip_eq : skip = takes fun _ => some () := by
  funext elements
  cases elements <;> rfl

variable {α β : Type} {decode : Cbor → Option α} {reader : Reader α}

theorem takes_bind {f : α → Reader β} {g : α → Option β}
    (h : ∀ a rest, f a rest = (g a).map (·, rest)) :
    (takes decode >>= f) = takes fun c => (decode c).bind g := by
  funext elements
  cases elements with
  | nil => rfl
  | cons c rest =>
    show ((decode c).map (·, rest)).bind (fun r => f r.1 r.2) = ((decode c).bind g).map (·, rest)
    cases decode c with
    | none => rfl
    | some a => exact h a rest

theorem takes_map (h : reader = takes decode) (f : α → β) :
    (do return f (← reader) : Reader β) = takes fun c => (decode c).map f := by
  have hBind : (takes decode >>= fun a => pure (f a)) = takes fun c =>
      (decode c).bind fun a => some (f a) := takes_bind fun _ _ => rfl
  rw [h, hBind]
  simp only [Option.map_eq_bind, Function.comp_def]

/-- A value that is checked. -/
theorem takes_guard (h : reader = takes decode) {p : α → Prop} [DecidablePred p] (f : α → β) : (do
      let a ← reader
      if p a then failure
      return f a : Reader β) = takes fun c =>
        (decode c).bind fun a => if p a then none else some (f a) := by
  rw [h]
  refine takes_bind fun a rest => ?_
  by_cases hp : p a
  · simp only [if_pos hp]
    rfl
  · simp only [if_neg hp]
    rfl

/-- A value that is only noted. -/
theorem takes_noted (h : reader = takes decode) (f : Bool → β) :
    (do let _ ← reader; return f true : Reader β) = takes fun c =>
      ((decode c).map fun _ => true).map f := by
  refine (takes_map h fun _ => f true).trans (congrArg takes (funext fun c => ?_))
  exact (Option.map_map f (fun _ => true) (decode c)).symm

/-! ## Containers -/

section Containers

variable {κ σ α : Type}

/-- The members of a map, its elements two by two. -/
def membersOf (keyOf : Cbor → Option κ) : List Cbor → Option (List (κ × Cbor))
  | [] => some []
  | [_] => none
  | k :: v :: rest => do
      let key ← keyOf k
      let members ← membersOf keyOf rest
      return (key, v) :: members

def asMembers (keyOf : Cbor → Option κ) : Cbor → Option (List (κ × Cbor))
  | .map elements => membersOf keyOf elements
  | _ => none

variable {keyOf : Cbor → Option κ} {decode : Cbor → Option α}

theorem untilEnd_members {function : σ → Reader σ} {step : σ → κ × Cbor → Option σ}
    (hMember : ∀ s k v rest, function s (k :: v :: rest) =
      (keyOf k).bind fun key => (step s (key, v)).map (·, rest))
    (hOdd : ∀ s k, function s [k] = none) {elements : List Cbor} {fuel : Nat}
    (hFuel : elements.length ≤ fuel) (s : σ) :
    untilEnd function fuel s elements =
      (membersOf keyOf elements).bind fun members => members.foldlM step s := by
  induction elements using membersOf.induct generalizing fuel s with
  | case1 => cases fuel <;> rfl
  | case2 k =>
    cases fuel with
    | zero => rfl
    | succ fuel =>
      show (function s [k]).bind _ = none
      rw [hOdd]
      rfl
  | case3 k v rest ih =>
    cases fuel with
    | zero => cases hFuel
    | succ fuel =>
      rw [List.length_cons, List.length_cons] at hFuel
      show (function s (k :: v :: rest)).bind (fun r => untilEnd function fuel r.1 r.2) =
        ((keyOf k).bind fun key => (membersOf keyOf rest).bind fun members =>
          some ((key, v) :: members)).bind _
      rw [hMember]
      cases keyOf k with
      | none => rfl
      | some key =>
        show ((step s (key, v)).map (·, rest)).bind _ =
          ((membersOf keyOf rest).bind fun members => some ((key, v) :: members)).bind _
        have hFold : ∀ members, ((key, v) :: members).foldlM step s =
            (step s (key, v)).bind fun s' => members.foldlM step s' := fun _ => rfl
        cases hStep : step s (key, v) with
        | none =>
          cases membersOf keyOf rest with
          | none => rfl
          | some members => exact ((hFold members).trans (by rw [hStep]; rfl)).symm
        | some s' =>
          refine (ih (by omega) s').trans ?_
          cases membersOf keyOf rest with
          | none => rfl
          | some members => exact ((hFold members).trans (by rw [hStep]; rfl)).symm

theorem readMap_map (init : σ) (function : σ → Reader σ) (elements rest : List Cbor) :
    readMap init function (.map elements :: rest) =
      (untilEnd function elements.length init elements).map (·, rest) := by
  show ((untilEnd function elements.length init elements).bind fun s => some (s, _)).bind _ = _
  cases untilEnd function elements.length init elements <;> rfl

theorem readArray_array (init : σ) (function : σ → Reader σ) (elements rest : List Cbor) :
    readArray init function (.array elements :: rest) =
      (untilEnd function elements.length init elements).map (·, rest) := by
  show ((untilEnd function elements.length init elements).bind fun s => some (s, _)).bind _ = _
  cases untilEnd function elements.length init elements <;> rfl

theorem readMap_eq [BEq κ] {readKey : Reader κ} {init : σ} {member : κ → σ → Reader σ}
    {assign : κ → Cbor → σ → Option σ} (hKey : readKey = takes keyOf)
    (hMember : ∀ key s, member key s = takes (assign key · s)) :
    (readMap (init, []) fun (s, seen) => do
      let key ← readKey
      let seen ← requireUnique seen key
      return (← member key s, seen)) = takes fun c =>
        (asMembers keyOf c).bind fun members => assignOnce assign members (init, []) := by
  subst hKey
  funext elements
  cases elements with
  | nil => rfl
  | cons c rest =>
    cases c with
    | map contents =>
      refine (readMap_map _ _ contents rest).trans
        (congrArg (Option.map (·, rest)) (untilEnd_members ?_ ?_ (Nat.le_refl _) _))
      · rintro ⟨s, seen⟩ k v rest
        show ((keyOf k).map (·, v :: rest)).bind _ = _
        cases keyOf k with
        | none => rfl
        | some key =>
          show ((requireUnique seen key : Reader (List κ)) _).bind _ =
            (if seen.contains key then none
              else (assign key v s).map (·, key :: seen) : Option _).map _
          by_cases hSeen : seen.contains key = true
          · rw [requireUnique, if_pos hSeen, if_pos hSeen]
            rfl
          rw [requireUnique, if_neg hSeen, if_neg hSeen]
          show (member key s (v :: rest)).bind _ = _
          rw [hMember]
          show ((assign key v s).map _).bind _ = _
          cases assign key v s <;> rfl
      · rintro ⟨s, seen⟩ k
        show ((keyOf k).map (·, [])).bind _ = none
        cases keyOf k with
        | none => rfl
        | some key =>
          show ((requireUnique seen key : Reader (List κ)) _).bind _ = none
          by_cases hSeen : seen.contains key = true
          · rw [requireUnique, if_pos hSeen]
            rfl
          rw [requireUnique, if_neg hSeen]
          show (member key s []).bind _ = none
          rw [hMember]
          rfl
    | _ => rfl

theorem untilEnd_elements (elements : List Cbor) (xs : List α) :
    untilEnd (fun xs => do return xs ++ [← takes decode]) elements.length xs elements =
      (elements.mapM decode).map (xs ++ ·) := by
  induction elements generalizing xs with
  | nil => exact congrArg some (List.append_nil xs).symm
  | cons c elements ih =>
    rw [List.mapM_cons]
    show (((decode c).map (·, elements)).bind fun r => some (xs ++ [r.1], r.2)).bind _ =
      ((decode c).bind _).map _
    cases decode c with
    | none => rfl
    | some x =>
      refine (ih (xs ++ [x])).trans ?_
      show _ = ((elements.mapM decode).bind _).map _
      cases elements.mapM decode with
      | none => rfl
      | some ys => exact congrArg some (List.append_assoc xs [x] ys)

def asArray (decode : Cbor → Option α) : Cbor → Option (List α)
  | .array elements => elements.mapM decode
  | _ => none

theorem readArray_eq {reader : Reader α} (h : reader = takes decode) (xs : List α) :
    (readArray xs fun xs => do return xs ++ [← reader]) =
      takes fun c => (asArray decode c).map (xs ++ ·) := by
  subst h
  funext elements
  cases elements with
  | nil => rfl
  | cons c rest =>
    cases c with
    | array contents =>
      exact (readArray_array _ _ contents rest).trans
        (congrArg (Option.map (·, rest)) (untilEnd_elements contents xs))
    | _ => rfl

end Containers

/-! ## Items -/

/-- How the contents of a container divide into items. -/
structure View where
  Item : Type
  elements : Item → List Cbor
  single : ∀ c : Cbor, c.isTag = false → ∃ item, elements item = [c]
  untagged : ∀ item, (∀ c ∈ elements item, c.isTag = false) → ∃ c, elements item = [c]

/-- The cursor's view: every element is an item. -/
abbrev View.cursor : View := ⟨Cbor, ([·]), fun c _ => ⟨c, rfl⟩, fun c _ => ⟨c, rfl⟩⟩

section Items

variable {τ : Type}

/-- An item without tags that is `x`. -/
def Is (V : View) (fits : Cbor → τ → Prop) (item : V.Item) (x : τ) : Prop :=
  ∃ c, V.elements item = [c] ∧ fits c x

def IsText (maxLength : Nat) (c : Cbor) (s : Bytes) : Prop := c = .text s ∧ s.length ≤ maxLength

def IsBytes (maxLength : Nat) (c : Cbor) (s : Bytes) : Prop := c = .bytes s ∧ s.length ≤ maxLength

def IsBool (c : Cbor) (b : Bool) : Prop := ∃ argument, c = .special (if b then 21 else 20) argument

def IsArray (fits : Cbor → τ → Prop) (V : View) (c : Cbor) (xs : List τ) : Prop :=
  ∃ items, c = .array (items.flatMap V.elements) ∧ List.Forall₂ (Is V fits) items xs

variable {c : Cbor} {fits : Cbor → τ → Prop} {xs : List τ} {s : Bytes} {elements : List Cbor}
  {decode : Cbor → Option τ}

theorem is_cursor {x : τ} : Is .cursor fits c x ↔ fits c x := by
  constructor
  · rintro ⟨c', h, hFits⟩
    cases h
    exact hFits
  · exact fun h => ⟨c, rfl, h⟩

theorem within_eq {n : Nat} {contents : Bytes} :
    (if contents.length > n then none else some contents) = some s ↔
      contents = s ∧ s.length ≤ n := by
  by_cases h : contents.length > n
  · rw [if_pos h]
    refine ⟨nofun, ?_⟩
    rintro ⟨rfl, hLength⟩
    exact absurd h (Nat.not_lt.mpr hLength)
  · rw [if_neg h]
    constructor
    · intro hSome
      cases hSome
      exact ⟨rfl, Nat.not_lt.mp h⟩
    · rintro ⟨rfl, -⟩
      rfl

theorem asText_eq {n : Nat} : asText n c = some s ↔ IsText n c s := by
  cases c with
  | text contents => exact within_eq.trans (and_congr_left' ⟨congrArg _, Cbor.text.inj⟩)
  | _ => exact ⟨nofun, fun h => nomatch h.1⟩

theorem asBytes_eq {n : Nat} : asBytes n c = some s ↔ IsBytes n c s := by
  cases c with
  | bytes contents => exact within_eq.trans (and_congr_left' ⟨congrArg _, Cbor.bytes.inj⟩)
  | _ => exact ⟨nofun, fun h => nomatch h.1⟩

theorem asUint_eq {n : UInt64} : asUint c = some n ↔ c = .uint n := by
  cases c with
  | uint m => exact ⟨fun h => congrArg Cbor.uint (Option.some.inj h), fun h => by cases h; rfl⟩
  | _ => exact ⟨nofun, nofun⟩

theorem asBool_eq {b : Bool} : asBool c = some b ↔ IsBool c b := by
  constructor
  · intro h
    unfold asBool at h
    split at h
    · cases h
      exact ⟨_, rfl⟩
    · cases h
      exact ⟨_, rfl⟩
    · cases h
  · rintro ⟨argument, rfl⟩
    cases b <;> rfl

theorem mapM_eq (h : ∀ c x, decode c = some x ↔ fits c x) :
    elements.mapM decode = some xs ↔ List.Forall₂ fits elements xs := by
  induction elements generalizing xs with
  | nil =>
    constructor
    · intro hNil
      cases hNil
      exact .nil
    · rintro ⟨⟩
      rfl
  | cons c elements ih =>
    rw [List.mapM_cons]
    constructor
    · intro hCons
      obtain ⟨x, hx, hCons⟩ := Option.bind_eq_some_iff.mp hCons
      obtain ⟨ys, hys, hCons⟩ := Option.bind_eq_some_iff.mp hCons
      cases hCons
      exact .cons ((h c x).mp hx) (ih.mp hys)
    · rintro (_ | ⟨hx, hys⟩)
      rw [(h _ _).mpr hx, ih.mpr hys]
      rfl

/-- What an array lists, in any view: each element is an item. -/
theorem isArray_eq {V : View} : IsArray fits V (.array elements) xs ↔
      List.Forall₂ (fun c x => (∃ item, V.elements item = [c]) ∧ fits c x) elements xs := by
  constructor
  · rintro ⟨items, hItems, hEach⟩
    cases hItems
    induction hEach with
    | nil => exact .nil
    | @cons item _ _ _ hIs _ ih =>
      obtain ⟨c, hItem, hx⟩ := hIs
      rw [List.flatMap_cons, hItem]
      exact .cons ⟨⟨item, hItem⟩, hx⟩ ih
  · intro hEach
    induction hEach with
    | nil => exact ⟨[], rfl, .nil⟩
    | @cons c _ _ _ hHead _ ih =>
      obtain ⟨⟨item, hItem⟩, hx⟩ := hHead
      obtain ⟨items, hItems, hRest⟩ := ih
      refine ⟨item :: items, ?_, .cons ⟨c, hItem, hx⟩ hRest⟩
      rw [List.flatMap_cons, hItem, Cbor.array.inj hItems]
      rfl

theorem isArray_cursor :
    IsArray fits .cursor (.array elements) xs ↔ List.Forall₂ fits elements xs :=
  isArray_eq.trans ⟨List.Forall₂.imp fun _ _ h => h.2, List.Forall₂.imp fun c _ h => ⟨⟨c, rfl⟩, h⟩⟩

theorem asArray_eq (h : ∀ c x, decode c = some x ↔ fits c x) :
    asArray decode c = some xs ↔ IsArray fits .cursor c xs := by
  cases c with
  | array elements => exact (mapM_eq h).trans isArray_cursor.symm
  | _ => exact ⟨nofun, fun ⟨_, hItems, _⟩ => nomatch hItems⟩

end Items

/-! ## Records -/

section Records

variable {κ σ τ : Type}

/-- A map with the given members, whose keys are distinct and within bounds. -/
structure Members (V : View) (key : κ → Cbor) (bound : κ → Prop) (c : Cbor)
    (members : List (κ × V.Item)) : Prop where
  contents : c = .map (members.flatMap fun m => key m.1 :: V.elements m.2)
  distinct : (members.map Prod.fst).Nodup
  bounded : ∀ m ∈ members, bound m.1

/-- What the value of a member says of a field. -/
def Gives (V : View) (fits : Cbor → τ → Prop) (default : τ) : Option V.Item → τ → Prop
  | none, x => x = default
  | some item, x => Is V fits item x

/-- A field of a record. -/
structure Field (κ σ : Type) where
  key : κ
  τ : Type
  get : σ → τ
  put : τ → σ → σ
  default : τ
  /-- How the parser reads the member's value, given what the field holds. -/
  update : Cbor → τ → Option τ
  /-- What the member's value may be. -/
  fits : View → Cbor → τ → Prop

structure Layout (κ σ : Type) where
  fields : List (Field κ σ)
  required : List κ := []
  valid : σ → Bool := fun _ => true
  init : σ

/-- A map that is the record `s`: it has the required keys, and each field is what the value of
its key gives. Members with other keys may be anything. -/
def IsRecord [BEq κ] (key : κ → Cbor) (bound : κ → Prop) (L : Layout κ σ) (V : View) (c : Cbor)
    (s : σ) : Prop :=
  ∃ members, Members V key bound c members ∧
    (∀ f ∈ L.fields, Gives V (f.fits V) f.default (members.lookup f.key) (f.get s)) ∧
    (∀ k ∈ L.required, k ∈ members.map Prod.fst) ∧ L.valid s

variable {s : σ} {key : κ → Cbor} {bound : κ → Prop} {keyOf : Cbor → Option κ} {c : Cbor}
  {L : Layout κ σ} {members : List (κ × Cbor)} {fields : List (Field κ σ)}

theorem membersOf_eq (hKey : ∀ c k, keyOf c = some k ↔ c = key k ∧ bound k) {elements : List Cbor} :
    membersOf keyOf elements = some members ↔
      elements = (members.flatMap fun m => [key m.1, m.2]) ∧ ∀ m ∈ members, bound m.1 := by
  induction elements using membersOf.induct generalizing members with
  | case1 =>
    cases members with
    | nil => exact ⟨fun _ => ⟨rfl, nofun⟩, fun _ => rfl⟩
    | cons m members => exact ⟨nofun, fun h => nomatch h.1⟩
  | case2 k =>
    cases members with
    | nil => exact ⟨nofun, fun h => nomatch h.1⟩
    | cons m members => exact ⟨nofun, fun h => nomatch h.1⟩
  | case3 k v rest ih =>
    constructor
    · intro h
      obtain ⟨key', hFirst, h⟩ := Option.bind_eq_some_iff.mp h
      obtain ⟨members', hRest, h⟩ := Option.bind_eq_some_iff.mp h
      cases h
      obtain ⟨rfl, hBound⟩ := (hKey k key').mp hFirst
      obtain ⟨rfl, hBounds⟩ := ih.mp hRest
      exact ⟨rfl, List.forall_mem_cons.mpr ⟨hBound, hBounds⟩⟩
    · rintro ⟨hElements, hBounds⟩
      cases members with
      | nil => cases hElements
      | cons m members =>
        obtain ⟨key', value⟩ := m
        rw [List.forall_mem_cons] at hBounds
        rw [List.flatMap_cons] at hElements
        injection hElements with hk hElements
        injection hElements with hv hElements
        subst hv
        show (keyOf k).bind _ = _
        rw [(hKey k key').mpr ⟨hk, hBounds.1⟩]
        show (membersOf keyOf rest).bind _ = _
        rw [ih.mpr ⟨hElements, hBounds.2⟩]
        rfl

theorem Members.decoded (hKey : ∀ c k, keyOf c = some k ↔ c = key k ∧ bound k)
    (h : Members .cursor key bound c members) : asMembers keyOf c = some members := by
  obtain ⟨rfl, -, hBounds⟩ := h
  exact (membersOf_eq hKey).mpr ⟨rfl, hBounds⟩

variable [BEq κ] [LawfulBEq κ]

/-- One member. -/
def assign (fields : List (Field κ σ)) (k : κ) (c : Cbor) (s : σ) : Option σ :=
  match fields.find? (·.key == k) with
  | some f => (f.update c (f.get s)).map (f.put · s)
  | none => some s

def asRecord (keyOf : Cbor → Option κ) (L : Layout κ σ) (c : Cbor) : Option σ :=
  (asMembers keyOf c).bind fun members =>
    (assignOnce (assign L.fields) members (L.init, [])).bind fun r =>
      if L.required.all r.2.contains && L.valid r.1 then some r.1 else none

/-- The parser reads the field's values as they are. -/
structure Field.Sound (f : Field κ σ) : Prop where
  update : ∀ c x, f.update c f.default = some x ↔ f.fits .cursor c x
  accepts : ∀ c x, f.fits .cursor c x → ∀ old, (f.update c old).isSome

/-- Each field keeps to itself, and the fields make up the record. -/
structure Layout.Lawful (L : Layout κ σ) : Prop where
  keys : (L.fields.map (·.key)).Nodup
  sound : ∀ f ∈ L.fields, f.Sound
  get_put : ∀ f ∈ L.fields, ∀ x s, f.get (f.put x s) = x
  frame : ∀ f ∈ L.fields, ∀ g ∈ L.fields, g.key ≠ f.key → ∀ x s, g.get (f.put x s) = g.get s
  ext : ∀ s s', (∀ f ∈ L.fields, f.get s = f.get s') → s = s'
  initial : ∀ f ∈ L.fields, f.get L.init = f.default

/-- What a member tells of the record, in the cursor's view. -/
def tells (fields : List (Field κ σ)) (k : κ) (v : Option Cbor) (s : σ) : Prop :=
  ∀ f ∈ fields, f.key = k → Gives .cursor (f.fits .cursor) f.default v (f.get s)

theorem gives_some {fits : Cbor → τ → Prop} {default : τ} {x : τ} :
    Gives .cursor fits default (some c) x ↔ fits c x := is_cursor

theorem find_key (hKeys : (fields.map (·.key)).Nodup) {f : Field κ σ} (hf : f ∈ fields) :
    fields.find? (·.key == f.key) = some f := by
  induction fields with
  | nil => cases hf
  | cons g fields ih =>
    rw [List.map_cons, List.nodup_cons] at hKeys
    rcases List.mem_cons.mp hf with rfl | hf
    · exact List.find?_cons_of_pos (beq_self_eq_true _)
    · have hOther : g.key ≠ f.key := fun h => hKeys.1 (h ▸ List.mem_map_of_mem hf)
      rw [List.find?_cons_of_neg (by simpa using hOther)]
      exact ih hKeys.2 hf

theorem Layout.Lawful.reads (hLawful : L.Lawful) :
    Reads (assign L.fields) (tells L.fields) L.init where
  initial k f hf _ := hLawful.initial f hf
  own := by
    rintro k c s s' h hTells f hf rfl
    rw [assign, find_key hLawful.keys hf] at h
    obtain ⟨x, hx, rfl⟩ := Option.map_eq_some_iff.mp h
    have hDefault : f.get s = f.default := hTells f hf rfl
    rw [hDefault] at hx
    rw [hLawful.get_put f hf]
    exact gives_some.mpr (((hLawful.sound f hf).update c x).mp hx)
  other := by
    rintro k c s s' h j o hj hTells f hf rfl
    have hSame : f.get s' = f.get s := by
      cases hFind : L.fields.find? (·.key == k) with
      | none =>
        rw [assign, hFind] at h
        cases h
        rfl
      | some g =>
        rw [assign, hFind] at h
        obtain ⟨x, -, rfl⟩ := Option.map_eq_some_iff.mp h
        have hg : g.key = k := by simpa using List.find?_some hFind
        exact hLawful.frame g (List.mem_of_find?_eq_some hFind) f hf (hg ▸ hj) x s
    rw [hSame]
    exact hTells f hf rfl
  accepts := by
    intro k c s' hTells s
    cases hFind : L.fields.find? (·.key == k) with
    | none =>
      rw [assign, hFind]
      rfl
    | some g =>
      rw [assign, hFind, Option.isSome_map]
      have hMem := List.mem_of_find?_eq_some hFind
      have hg : g.key = k := by simpa using List.find?_some hFind
      exact (hLawful.sound g hMem).accepts c _ (gives_some.mp (hTells g hMem hg)) _
  unique := by
    intro o s s' h h'
    refine hLawful.ext s s' fun f hf => ?_
    have hs := h f.key f hf rfl
    have hs' := h' f.key f hf rfl
    cases hValue : o f.key with
    | none =>
      rw [hValue] at hs hs'
      exact Eq.trans hs (Eq.symm hs')
    | some c =>
      rw [hValue] at hs hs'
      have hx := ((hLawful.sound f hf).update c _).mpr (gives_some.mp hs)
      rw [((hLawful.sound f hf).update c _).mpr (gives_some.mp hs')] at hx
      exact (Option.some.inj hx).symm

theorem all_contains_iff {required seen : List κ} :
    required.all seen.contains = true ↔ ∀ k ∈ required, k ∈ seen := by
  simp

section

variable (hKey : ∀ c k, keyOf c = some k ↔ c = key k ∧ bound k)
include hKey

/-- **A record decoded from a map is the record the map is, in the cursor's view.** -/
theorem asRecord_eq (hLawful : L.Lawful) :
    asRecord keyOf L c = some s ↔ IsRecord key bound L .cursor c s := by
  have hTells : ∀ members : List (κ × Cbor), (∀ k, tells L.fields k (members.lookup k) s) ↔
      ∀ f ∈ L.fields, Gives .cursor (f.fits .cursor) f.default (members.lookup f.key) (f.get s) :=
    fun members => ⟨fun h f hf => h f.key f hf rfl, fun h k f hf hk => hk ▸ h f hf⟩
  constructor
  · intro h
    obtain ⟨members, hMembers, h⟩ := Option.bind_eq_some_iff.mp h
    obtain ⟨⟨s', seen⟩, hOnce, h⟩ := Option.bind_eq_some_iff.mp h
    obtain ⟨hDistinct, -, rfl, hAll⟩ := assignOnce_eq.mp hOnce
    by_cases hValid : (L.required.all ((members.map Prod.fst).reverse ++ []).contains &&
        L.valid s') = true
    · rw [if_pos hValid] at h
      cases h
      rw [Bool.and_eq_true, all_contains_iff] at hValid
      cases c with
      | map elements =>
        obtain ⟨rfl, hBounds⟩ := (membersOf_eq hKey).mp hMembers
        refine ⟨members, ⟨rfl, hDistinct, hBounds⟩,
          (hTells members).mp ((hLawful.reads.assignAll_eq hDistinct).mp hAll),
          fun k hk => ?_, hValid.2⟩
        have hSeen := hValid.1 k hk
        rw [List.append_nil] at hSeen
        exact List.mem_reverse.mp hSeen
      | _ => cases hMembers
    · rw [if_neg hValid] at h
      cases h
  · rintro ⟨members, hMembers, hFields, hRequired, hValid⟩
    have hDistinct := hMembers.distinct
    have hOnce : assignOnce (assign L.fields) members (L.init, []) =
        some (s, (members.map Prod.fst).reverse ++ []) :=
      assignOnce_eq.mpr ⟨hDistinct, fun _ _ => List.not_mem_nil, rfl,
        (hLawful.reads.assignAll_eq hDistinct).mpr ((hTells members).mpr hFields)⟩
    unfold asRecord
    rw [hMembers.decoded hKey]
    show (assignOnce (assign L.fields) members (L.init, [])).bind _ = _
    rw [hOnce]
    refine if_pos (Bool.and_eq_true_iff.mpr ⟨all_contains_iff.mpr fun k hk => ?_, hValid⟩)
    exact List.mem_append_left _ (List.mem_reverse.mpr (hRequired k hk))

theorem IsRecord.member (h : IsRecord key bound L .cursor c s) {f : Field κ σ} (hf : f ∈ L.fields)
    (hRequired : f.key ∈ L.required) :
    ∃ v, (asMembers keyOf c).bind (·.lookup f.key) = some v ∧ f.fits .cursor v (f.get s) := by
  obtain ⟨members, hMembers, hFields, hKeys, -⟩ := h
  obtain ⟨⟨k, v⟩, hMem, rfl⟩ := List.mem_map.mp (hKeys _ hRequired)
  have hGives := hFields f hf
  have hLookup := lookup_of_mem hMembers.distinct hMem
  rw [hLookup] at hGives
  rw [hMembers.decoded hKey]
  exact ⟨v, hLookup, gives_some.mp hGives⟩

/-- Whether a map is accepted does not depend on what the fields hold at first. -/
theorem asRecord_isSome (hLawful : L.Lawful)
    (hValid : ∀ s, L.valid s) (h : IsRecord key bound L .cursor c s) (init : σ) :
    (asRecord keyOf { L with init } c).isSome := by
  obtain ⟨members, hMembers, h⟩ := Option.bind_eq_some_iff.mp ((asRecord_eq hKey hLawful).mpr h)
  obtain ⟨⟨s', seen⟩, hOnce, h⟩ := Option.bind_eq_some_iff.mp h
  obtain ⟨hDistinct, hFresh, rfl, hAll⟩ := assignOnce_eq.mp hOnce
  have hEach : ∀ m ∈ members, ∀ s, (assign L.fields m.1 m.2 s).isSome := by
    intro m hm
    have hTells := (hLawful.reads.assignAll_eq hDistinct).mp hAll m.1
    rw [lookup_of_mem hDistinct hm] at hTells
    exact hLawful.reads.accepts m.1 m.2 s' hTells
  obtain ⟨s₁, hRead⟩ := Option.isSome_iff_exists.mp (assignAll_isSome hEach init)
  have hRequired : L.required.all ((members.map Prod.fst).reverse ++ []).contains = true := by
    by_contra hMissing
    rw [if_neg fun hAnd => hMissing (Bool.and_eq_true_iff.mp hAnd).1] at h
    cases h
  unfold asRecord
  rw [hMembers]
  show ((assignOnce (assign L.fields) members (init, [])).bind _).isSome
  rw [assignOnce_eq.mpr ⟨hDistinct, hFresh, rfl, hRead⟩]
  show (if L.required.all _ && L.valid s₁ then some s₁ else none).isSome
  rw [if_pos (Bool.and_eq_true_iff.mpr ⟨hRequired, hValid s₁⟩)]
  rfl

end

/-! ### Readers of records -/

theorem takes_assign_unknown {k : κ} (h : ∀ f ∈ fields, f.key ≠ k) :
    (do skip; return s : Reader σ) = takes (assign fields k · s) := by
  have hFind : fields.find? (·.key == k) = none :=
    List.find?_eq_none.mpr fun f hf => by simpa using h f hf
  simp only [assign, hFind]
  exact takes_map skip_eq fun _ => s

theorem takes_assign_nil {k : κ} :
    (do skip; return s : Reader σ) = takes (assign ([] : List (Field κ σ)) k · s) :=
  takes_assign_unknown fun _ hf => absurd hf List.not_mem_nil

omit [BEq κ] [LawfulBEq κ] in
theorem takes_assign_cons {f : Field Bytes σ} {fields : List (Field Bytes σ)} {k name : Bytes}
    {reader others : Reader σ} (hKey : f.key = name)
    (hReader : reader = takes fun c => (f.update c (f.get s)).map (f.put · s))
    (hOthers : others = takes (assign fields k · s)) :
    (if k = name then reader else others) = takes (assign (f :: fields) k · s) := by
  subst hKey
  by_cases h : k = f.key
  · have hFind : (f :: fields).find? (·.key == k) = some f :=
      List.find?_cons_of_pos (beq_iff_eq.mpr h.symm)
    simp only [if_pos h, assign, hFind, hReader]
  · have hFind : (f :: fields).find? (·.key == k) = fields.find? (·.key == k) :=
      List.find?_cons_of_neg (by simpa using Ne.symm h)
    simp only [if_neg h, assign, hFind, hOthers]

omit [BEq κ] [LawfulBEq κ] in
theorem readRecord_eq {maxLength : Nat} {L : Layout Bytes σ} {member : Bytes → σ → Reader σ}
    {check : σ × List Bytes → Reader σ}
    (hMember : ∀ key s, member key s = takes (assign L.fields key · s))
    (hCheck : ∀ s seen rest, check (s, seen) rest =
      (if L.required.all seen.contains && L.valid s then some s else none).map (·, rest)) :
    (readMembers maxLength L.init member >>= check) = takes (asRecord (asText maxLength) L) := by
  unfold readMembers
  rw [readMap_eq (readText_eq maxLength) hMember]
  refine (takes_bind fun r rest => hCheck r.1 r.2 rest).trans ?_
  funext elements
  cases elements with
  | nil => rfl
  | cons c rest =>
    refine congrArg (Option.map (·, rest)) ?_
    exact Option.bind_assoc (asMembers (asText maxLength) c) _ _

omit [BEq κ] [LawfulBEq κ] in
theorem check_eq {p : Prop} [Decidable p] {b : Bool} {rest : List Cbor} (h : p ↔ b = false) : (do
      if p then failure
      return s : Reader σ) rest = (if b then some s else none).map (·, rest) := by
  cases b with
  | false =>
    simp only [if_pos (h.mpr rfl)]
    rfl
  | true =>
    simp only [if_neg fun hp => Bool.noConfusion (h.mp hp)]
    rfl

end Records

/-! ### Kinds of fields -/

section Fields

variable {κ σ τ : Type}

/-- A field that is set to the value. -/
@[simp] def Field.value (key : κ) (get : σ → τ) (put : τ → σ → σ) (default : τ)
    (decode : Cbor → Option τ) (fits : View → Cbor → τ → Prop) : Field κ σ :=
  ⟨key, τ, get, put, default, fun c _ => decode c, fits⟩

/-- A list to which the elements of an array are appended. -/
@[simp] def Field.list (key : κ) (get : σ → List τ) (put : List τ → σ → σ) (decode : Cbor → Option τ)
    (fits : View → Cbor → τ → Prop) : Field κ σ :=
  ⟨key, List τ, get, put, [], fun c xs => (asArray decode c).map (xs ++ ·),
    fun V => IsArray (fits V) V⟩

/-- A flag that tells whether there was a value. -/
@[simp] def Field.noted (key : κ) (get : σ → Bool) (put : Bool → σ → σ) (decode : Cbor → Option τ)
    (fits : View → Cbor → τ → Prop) : Field κ σ :=
  ⟨key, Bool, get, put, false, fun c _ => (decode c).map fun _ => true,
    fun V c present => (∃ x, fits V c x) ∧ present = true⟩

variable {key : κ} {decode : Cbor → Option τ} {fits : View → Cbor → τ → Prop}

theorem Field.sound_value {get : σ → τ} {put : τ → σ → σ} {default : τ}
    (h : ∀ c x, decode c = some x ↔ fits .cursor c x) :
    (Field.value key get put default decode fits).Sound where
  update := h
  accepts c x hFits _ := Option.isSome_iff_exists.mpr ⟨x, (h c x).mpr hFits⟩

theorem Field.sound_list {get : σ → List τ} {put : List τ → σ → σ}
    (h : ∀ c x, decode c = some x ↔ fits .cursor c x) :
    (Field.list key get put decode fits).Sound where
  update := by
    intro c (xs : List τ)
    show (asArray decode c).map (fun ys => ys) = some xs ↔ _
    rw [Option.map_id']
    exact asArray_eq h
  accepts := by
    intro c (xs : List τ) hFits (old : List τ)
    show ((asArray decode c).map (old ++ ·)).isSome
    rw [Option.isSome_map, (asArray_eq h).mpr hFits]
    rfl

theorem Field.sound_noted {get : σ → Bool} {put : Bool → σ → σ}
    (h : ∀ c x, decode c = some x ↔ fits .cursor c x) :
    (Field.noted key get put decode fits).Sound where
  update := by
    intro c (present : Bool)
    refine Option.map_eq_some_iff.trans ?_
    constructor
    · rintro ⟨x, hx, rfl⟩
      exact ⟨⟨x, (h c x).mp hx⟩, rfl⟩
    · rintro ⟨⟨x, hx⟩, rfl⟩
      exact ⟨x, (h c x).mpr hx, rfl⟩
  accepts := by
    rintro c present ⟨⟨x, hx⟩, -⟩ old
    show ((decode c).map fun _ => true).isSome
    rw [Option.isSome_map, (h c x).mpr hx]
    rfl

end Fields

/-! ### Records inside an object -/

section Within

variable {σ τ : Type}

/-- A field of a part of the object. -/
def Field.within (get : σ → τ) (put : τ → σ → σ) (f : Field Bytes τ) : Field Bytes σ where
  key := f.key
  τ := f.τ
  get s := f.get (get s)
  put x s := put (f.put x (get s)) s
  default := f.default
  update := f.update
  fits := f.fits

theorem assign_within {get : σ → τ} {put : τ → σ → σ} (hPutGet : ∀ s, put (get s) s = s)
    (fields : List (Field Bytes τ)) (k : Bytes) (c : Cbor) (s : σ) :
    assign (fields.map (.within get put)) k c s = (assign fields k c (get s)).map (put · s) := by
  have hFind : (fields.map (.within get put)).find? (·.key == k) =
      (fields.find? (·.key == k)).map (Field.within get put) := List.find?_map
  unfold assign
  rw [hFind]
  cases fields.find? (·.key == k) with
  | none => exact congrArg some (hPutGet s).symm
  | some f => exact (Option.map_map (put · s) (f.put · (get s)) _).symm

theorem readPart_eq {maxLength : Nat} {L : Layout Bytes τ} (get : σ → τ) (put : τ → σ → σ)
    (hGetPut : ∀ x s, get (put x s) = x) (hPutGet : ∀ s, put (get s) s = s)
    (hPutPut : ∀ x y s, put y (put x s) = put y s) (hRequired : L.required = [])
    (hValid : ∀ x, L.valid x) {member : Bytes → σ → Reader σ}
    (hMember : ∀ key s, member key s = takes (assign (L.fields.map (.within get put)) key · s))
    (s : σ) : (do
      let (s, _) ← readMembers maxLength s member
      return s) = takes fun c =>
        (asRecord (asText maxLength) { L with init := get s } c).map (put · s) := by
  have hAssign : ∀ k c x, assign (L.fields.map (.within get put)) k c (put x s) =
      (assign L.fields k c x).map (put · s) := by
    intro k c x
    rw [assign_within hPutGet, hGetPut]
    exact congrArg (Option.map · _) (funext fun y => hPutPut x y s)
  have hOnce : ∀ members : List (Bytes × Cbor),
      assignOnce (assign (L.fields.map (.within get put))) members (s, []) =
        (assignOnce (assign L.fields) members (get s, [])).map fun r => (put r.1 s, r.2) := by
    intro members
    have hMap := assignOnce_map (f := (put · s)) hAssign members (get s) []
    rwa [hPutGet] at hMap
  unfold readMembers
  rw [readMap_eq (readText_eq maxLength) hMember]
  refine (takes_map rfl Prod.fst).trans (congrArg takes (funext fun c => ?_))
  unfold asRecord
  cases asMembers (asText maxLength) c with
  | none => rfl
  | some members =>
    show (assignOnce _ members (s, [])).map Prod.fst = Option.map _ (Option.bind
      (assignOnce (assign L.fields) members (get s, [])) _)
    rw [hOnce]
    cases assignOnce (assign L.fields) members (get s, []) with
    | none => rfl
    | some r =>
      have hAccepted : (L.required.all r.2.contains && L.valid r.1) = true := by
        rw [hRequired, hValid]
        rfl
      show some (put r.1 s) = Option.map (put · s) (if _ then some r.1 else none)
      rw [if_pos hAccepted]
      rfl

/-- A part of the object, read from a map of its own. -/
@[simp] def Field.part {κ : Type} (key : κ) (get : σ → τ) (put : τ → σ → σ) (maxLength : Nat)
    (L : Layout Bytes τ) : Field κ σ :=
  ⟨key, τ, get, put, L.init, fun c x => asRecord (asText maxLength) { L with init := x } c,
    IsRecord Cbor.text (·.length ≤ maxLength) L⟩

theorem Field.sound_part {κ : Type} {key : κ} {get : σ → τ} {put : τ → σ → σ} {maxLength : Nat}
    {L : Layout Bytes τ} (hLawful : L.Lawful) (hValid : ∀ x, L.valid x) :
    (Field.part key get put maxLength L).Sound where
  update _ _ := asRecord_eq (fun _ _ => asText_eq) hLawful
  accepts _ _ h := asRecord_isSome (fun _ _ => asText_eq) hLawful hValid h

end Within

theorem parseRoot_eq {σ : Type} {L : Layout UInt64 σ} {parameter : UInt64 → σ → Reader σ}
    (hParameter : ∀ key s, parameter key s = takes (assign L.fields key · s))
    (hValid : ∀ s, L.valid s) (root : Cbor) :
    parseRoot parameter L.required L.init root = asRecord asUint L root := by
  unfold parseRoot
  rw [readMap_eq readUint_eq hParameter]
  show ((Option.bind (asMembers asUint root) _).map (·, [])).bind _ = Option.bind _ _
  cases asMembers asUint root with
  | none => rfl
  | some members =>
    show ((assignOnce (assign L.fields) members (L.init, [])).map (·, [])).bind _ =
      (assignOnce (assign L.fields) members (L.init, [])).bind _
    cases assignOnce (assign L.fields) members (L.init, []) with
    | none => rfl
    | some r =>
      show (if L.required.all r.2.contains then some r.1 else none) =
        if L.required.all r.2.contains && L.valid r.1 then some r.1 else none
      rw [hValid, Bool.and_true]

end VAuth.Ctap
