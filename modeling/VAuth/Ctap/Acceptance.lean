import VAuth.Ctap.Grammar

/-!
# What the parsers accept

A data item of CBOR is an element with the tags in front of it. The cursor takes a tag for an
element of its own, so behind an unknown member with a tagged value the parsers take values for
keys. The two ways to divide a map into members agree only where no tag stands in the map
(`uniform_isRecord`), and so the parsers accept exactly the requests of the grammar over data items
as long as no request, read in either way, has a tag in a map that they read.
-/

namespace VAuth.Ctap

open Store Format

/-! ## Data items -/

/-- A data item: an element with its tags. -/
structure DataItem where
  tags : List UInt64
  content : Cbor
  untagged : content.isTag = false

def DataItem.elements (item : DataItem) : List Cbor := item.tags.map .tag ++ [item.content]

theorem DataItem.elements_untagged (item : DataItem)
    (h : ∀ c ∈ item.elements, c.isTag = false) : item.elements = [item.content] := by
  obtain ⟨tags, content, hContent⟩ := item
  cases tags with
  | nil => rfl
  | cons n tags => cases h (.tag n) List.mem_cons_self

abbrev View.items : View :=
  ⟨DataItem, DataItem.elements, fun c h => ⟨⟨[], c, h⟩, rfl⟩,
    fun item h => ⟨item.content, item.elements_untagged h⟩⟩

/-- The view in which no tag may stand in a container. -/
abbrev View.plain : View :=
  ⟨{ c : Cbor // c.isTag = false }, fun c => [c.1], fun c h => ⟨⟨c, h⟩, rfl⟩, fun c _ => ⟨c.1, rfl⟩⟩

mutual

/-- There is no tag in the item, at any depth. -/
def tagFree : Cbor → Bool
  | .array elements => allTagFree elements
  | .map elements => allTagFree elements
  | .tag _ => false
  | _ => true

def allTagFree : List Cbor → Bool
  | [] => true
  | c :: rest => tagFree c && allTagFree rest

end

variable {c : Cbor} {τ : Type} {fits : View → Cbor → τ → Prop}

theorem isTag_of_tagFree (h : tagFree c) : c.isTag = false := by
  cases c with
  | tag n => cases h
  | _ => rfl

theorem tagFree_of_mem {elements : List Cbor} (h : allTagFree elements) (hc : c ∈ elements) :
    tagFree c := by
  induction elements with
  | nil => cases hc
  | cons e elements ih =>
    obtain ⟨hFirst, hRest⟩ := Bool.and_eq_true_iff.mp h
    rcases List.mem_cons.mp hc with rfl | hc
    · exact hFirst
    · exact ih hRest hc

/-- What an item may be, in each view: it is so in the plain view if it is so both for the cursor
and over data items, or if there are no tags in it. -/
structure Uniform {τ : Type} (fits : View → Cbor → τ → Prop) : Prop where
  plain : ∀ V c x, fits .plain c x → fits V c x
  both : ∀ c x, fits .cursor c x → fits .items c x → fits .plain c x
  tagFree : ∀ V c x, tagFree c → fits V c x → fits .plain c x

theorem uniform_const (fits : Cbor → τ → Prop) : Uniform fun _ => fits :=
  ⟨fun _ _ _ h => h, fun _ _ h _ => h, fun _ _ _ _ h => h⟩

theorem Uniform.agree_iff (h : Uniform fits) (c : Cbor) (x : τ) :
    (fits .cursor c x ↔ fits .items c x) ↔
      (fits .cursor c x ∨ fits .items c x → fits .plain c x) := by
  constructor
  · rintro hAgree (hCursor | hItems)
    · exact h.both c x hCursor (hAgree.mp hCursor)
    · exact h.both c x (hAgree.mpr hItems) hItems
  · intro hPlain
    exact ⟨fun hCursor => h.plain .items c x (hPlain (.inl hCursor)),
      fun hItems => h.plain .cursor c x (hPlain (.inr hItems))⟩

theorem View.single_of_plain (h : ∃ item, View.plain.elements item = [c]) (V : View) :
    ∃ item, V.elements item = [c] := by
  obtain ⟨⟨_, hTag⟩, hItem⟩ := h
  cases hItem
  exact V.single _ hTag

theorem View.single_items (h : ∃ item, View.items.elements item = [c]) : c.isTag = false := by
  obtain ⟨⟨tags, content, hContent⟩, hItem⟩ := h
  cases tags with
  | nil =>
    cases hItem
    exact hContent
  | cons => simp [DataItem.elements] at hItem

theorem Uniform.accepts_iff (h : Uniform fits) {found : Option (Cbor × Bytes)} :
    (∀ x, (∃ root, found = some (root, []) ∧ fits .cursor root x) ↔
        ∃ root, found = some (root, []) ∧ fits .items root x) ↔
      ∀ root x, found = some (root, []) → fits .cursor root x ∨ fits .items root x →
        fits .plain root x := by
  constructor
  · rintro hAll root x rfl
    have hRoot := hAll x
    simp only [Option.some.injEq, Prod.mk.injEq, and_true, exists_eq_left'] at hRoot
    exact (h.agree_iff root x).mp hRoot
  · intro hPlain x
    refine exists_congr fun root => and_congr_right fun hFound => ?_
    exact (h.agree_iff root x).mpr (hPlain root x hFound)

theorem uniform_isArray (h : Uniform fits) : Uniform fun V => IsArray (fits V) V where
  plain := by
    rintro V _ xs ⟨items, rfl, hEach⟩
    refine isArray_eq.mpr ((isArray_eq.mp ⟨items, rfl, hEach⟩).imp fun c x hx => ?_)
    exact ⟨View.single_of_plain hx.1 V, h.plain V c x hx.2⟩
  both := by
    rintro c xs hCursor ⟨items, rfl, hEach⟩
    have hItems := List.forall₂_iff_zip.mp (isArray_eq.mp ⟨items, rfl, hEach⟩)
    have hCursor := List.forall₂_iff_zip.mp (isArray_eq.mp hCursor)
    refine isArray_eq.mpr (List.forall₂_iff_zip.mpr ⟨hItems.1, fun hPair => ?_⟩)
    exact ⟨View.plain.single _ (View.single_items (hItems.2 hPair).1),
      h.both _ _ (hCursor.2 hPair).2 (hItems.2 hPair).2⟩
  tagFree := by
    rintro V _ xs hFree ⟨items, rfl, hEach⟩
    have hAll := List.forall₂_iff_zip.mp (isArray_eq.mp ⟨items, rfl, hEach⟩)
    refine isArray_eq.mpr (List.forall₂_iff_zip.mpr ⟨hAll.1, fun hPair => ?_⟩)
    have hElement := tagFree_of_mem hFree (List.of_mem_zip hPair).1
    exact ⟨View.plain.single _ (isTag_of_tagFree hElement),
      h.tagFree V _ _ hElement (hAll.2 hPair).2⟩

/-! ## Members -/

section Members

variable {κ σ τ : Type} {V W : View}

/-- The same member in two views. -/
def Same (m : κ × V.Item) (m' : κ × W.Item) : Prop :=
  m.1 = m'.1 ∧ V.elements m.2 = W.elements m'.2

theorem exists_same {members : List (κ × V.Item)}
    (h : ∀ m ∈ members, ∃ item, V.elements m.2 = W.elements item) :
    ∃ members' : List (κ × W.Item), List.Forall₂ Same members members' := by
  induction members with
  | nil => exact ⟨[], .nil⟩
  | cons m members ih =>
    rw [List.forall_mem_cons] at h
    obtain ⟨item, hItem⟩ := h.1
    obtain ⟨members', hRest⟩ := ih h.2
    exact ⟨(m.1, item) :: members', .cons ⟨rfl, hItem⟩ hRest⟩

section Same

variable {members : List (κ × V.Item)} {members' : List (κ × W.Item)}

theorem Same.contents (h : List.Forall₂ Same members members') (key : κ → Cbor) :
    (members.flatMap fun m => key m.1 :: V.elements m.2) =
      members'.flatMap fun m => key m.1 :: W.elements m.2 := by
  induction h with
  | nil => rfl
  | cons hSame _ ih =>
    rw [List.flatMap_cons, List.flatMap_cons, ih, hSame.1, hSame.2]

theorem Same.keys (h : List.Forall₂ Same members members') :
    members.map Prod.fst = members'.map Prod.fst := by
  induction h with
  | nil => rfl
  | cons hSame _ ih => rw [List.map_cons, List.map_cons, ih, hSame.1]

theorem Same.lookup [BEq κ] (h : List.Forall₂ Same members members') (k : κ) :
    Option.Rel (fun item item' => V.elements item = W.elements item') (members.lookup k)
      (members'.lookup k) := by
  induction h with
  | nil => exact .none
  | @cons m m' _ _ hSame _ ih =>
    obtain ⟨j, item⟩ := m
    obtain ⟨j', item'⟩ := m'
    obtain ⟨rfl, hElements⟩ := hSame
    rw [List.lookup_cons, List.lookup_cons]
    cases k == j with
    | true => exact .some hElements
    | false => exact ih

end Same

section Division

variable {key : κ → Cbor} (hKey : ∀ k, (key k).isTag = false)
include hKey

variable {read : List (κ × Cbor)} {members : List (κ × DataItem)}

/-- A cursor that has taken a tag for a value is ahead of the members from then on: it finds a key
at the end that has no value. -/
theorem cursor_behind_tag {v : Cbor} : v :: (read.flatMap fun m => [key m.1, m.2]) ≠
      members.flatMap fun m => key m.1 :: m.2.elements := by
  induction members generalizing v read with
  | nil => exact List.cons_ne_nil _ _
  | cons m members ih =>
    obtain ⟨k, tags, content, hContent⟩ := m
    intro hSame
    rw [List.flatMap_cons, List.cons_append] at hSame
    obtain ⟨-, hSame⟩ := List.cons.inj hSame
    cases read with
    | nil => simp [DataItem.elements] at hSame
    | cons r read =>
      rw [List.flatMap_cons] at hSame
      cases tags with
      | nil => exact ih (List.cons.inj hSame).2
      | cons n tags =>
        have hTag := hKey r.1
        rw [(List.cons.inj hSame).1] at hTag
        cases hTag

/-- **The cursor and the data items divide a map in the same way only if no tag stands in it.** -/
theorem exists_plain (hInjective : Function.Injective key)
    (h : (read.flatMap fun m => [key m.1, m.2]) =
      members.flatMap fun m => key m.1 :: m.2.elements) :
    ∃ plain : List (κ × View.plain.Item),
      List.Forall₂ (Same (V := .cursor) (W := .plain)) read plain ∧
        List.Forall₂ (Same (V := .items) (W := .plain)) members plain := by
  induction members generalizing read with
  | nil =>
    cases read with
    | nil => exact ⟨[], .nil, .nil⟩
    | cons => cases h
  | cons m members ih =>
    obtain ⟨k, tags, content, hContent⟩ := m
    cases read with
    | nil => cases h
    | cons r read =>
      obtain ⟨j, v⟩ := r
      rw [List.flatMap_cons, List.flatMap_cons] at h
      obtain ⟨hk, h⟩ := List.cons.inj h
      cases hInjective hk
      cases tags with
      | nil =>
        obtain ⟨hv, hRest⟩ := List.cons.inj h
        obtain ⟨plain, hRead, hMembers⟩ := ih hRest
        exact ⟨(k, ⟨content, hContent⟩) :: plain,
          .cons ⟨rfl, congrArg (fun c => [c]) hv⟩ hRead, .cons ⟨rfl, rfl⟩ hMembers⟩
      | cons n tags =>
        obtain ⟨-, h⟩ := List.cons.inj h
        cases read with
        | nil => simp at h
        | cons r read =>
          cases tags with
          | nil => exact absurd (List.cons.inj h).2 (cursor_behind_tag hKey)
          | cons n tags =>
            have hTag := hKey r.1
            rw [(List.cons.inj h).1] at hTag
            cases hTag

end Division

variable [BEq κ] {key : κ → Cbor} {bound : κ → Prop} {L : Layout κ σ} {c : Cbor} {s : σ}

/-- The record `s` with these members, its values being as `fits` says. -/
def Describes (key : κ → Cbor) (bound : κ → Prop) (L : Layout κ σ)
    (fits : (f : Field κ σ) → Cbor → f.τ → Prop) (members : List (κ × V.Item)) (c : Cbor)
    (s : σ) : Prop :=
  Members V key bound c members ∧
    (∀ f ∈ L.fields, Gives V (fits f) f.default (members.lookup f.key) (f.get s)) ∧
    (∀ k ∈ L.required, k ∈ members.map Prod.fst) ∧ L.valid s

section Describes

variable {fits fits' : (f : Field κ σ) → Cbor → f.τ → Prop} {members : List (κ × V.Item)}
  {members' : List (κ × W.Item)}

theorem gives_same {fits : Cbor → τ → Prop} {default x : τ} {v : Option V.Item}
    {v' : Option W.Item} (h : Gives V fits default v x)
    (hSame : Option.Rel (fun item item' => V.elements item = W.elements item') v v') :
    Gives W fits default v' x := by
  cases hSame with
  | none => exact h
  | some hElements =>
    obtain ⟨c, hItem, hx⟩ := h
    exact ⟨c, hElements ▸ hItem, hx⟩

theorem Describes.same (h : Describes key bound L fits members c s)
    (hSame : List.Forall₂ Same members members') : Describes key bound L fits members' c s := by
  obtain ⟨⟨hContents, hDistinct, hBounded⟩, hFields, hRequired, hValid⟩ := h
  refine ⟨⟨hContents.trans (congrArg _ (Same.contents hSame key)), Same.keys hSame ▸ hDistinct, ?_⟩,
    fun f hf => gives_same (hFields f hf) (Same.lookup hSame f.key), Same.keys hSame ▸ hRequired,
    hValid⟩
  rw [← List.forall_mem_map (f := Prod.fst) (P := bound), ← Same.keys hSame, List.forall_mem_map]
  exact hBounded

theorem Describes.mono [LawfulBEq κ] (h : Describes key bound L fits members c s)
    (hFits : ∀ elements, c = .map elements → ∀ f ∈ L.fields, ∀ e ∈ elements, ∀ x,
      fits f e x → fits' f e x) : Describes key bound L fits' members c s := by
  obtain ⟨hMembers, hFields, hRest⟩ := h
  refine ⟨hMembers, fun f hf => ?_, hRest⟩
  have hGives := hFields f hf
  cases hLookup : members.lookup f.key with
  | none =>
    rw [hLookup] at hGives
    exact hGives
  | some item =>
    rw [hLookup] at hGives
    obtain ⟨e, hItem, hx⟩ := hGives
    refine ⟨e, hItem, hFits _ hMembers.contents f hf e (List.mem_flatMap.mpr
      ⟨_, mem_of_lookup hLookup, List.mem_cons_of_mem _ ?_⟩) _ hx⟩
    rw [hItem]
    exact List.mem_singleton_self e

theorem Describes.and (h : Describes key bound L fits members c s)
    (h' : Describes key bound L fits' members c s) :
    Describes key bound L (fun f e x => fits f e x ∧ fits' f e x) members c s := by
  refine ⟨h.1, fun f hf => ?_, h.2.2⟩
  have hGives := h.2.1 f hf
  have hGives' := h'.2.1 f hf
  cases hLookup : members.lookup f.key with
  | none =>
    rw [hLookup] at hGives
    exact hGives
  | some item =>
    rw [hLookup] at hGives hGives'
    obtain ⟨e, hItem, hx⟩ := hGives
    obtain ⟨e', hItem', hx'⟩ := hGives'
    cases hItem.symm.trans hItem'
    exact ⟨e, hItem, hx, hx'⟩

end Describes

theorem uniform_isRecord [LawfulBEq κ] (hKey : ∀ k, (key k).isTag = false)
    (hInjective : Function.Injective key) (hFits : ∀ f ∈ L.fields, Uniform f.fits) :
    Uniform (IsRecord key bound L) where
  plain := by
    rintro V c s ⟨members, h⟩
    obtain ⟨members', hSame⟩ : ∃ members', List.Forall₂ (Same (W := V)) members members' :=
      exists_same fun m _ => (V.single m.2.1 m.2.2).imp fun _ h => h.symm
    refine ⟨members', Describes.mono (Describes.same h hSame) fun _ _ f hf e _ x => ?_⟩
    exact (hFits f hf).plain V e x
  both := by
    rintro c s ⟨read, hRead⟩ ⟨members, hItems⟩
    obtain ⟨plain, hSame, hSame'⟩ := exists_plain hKey hInjective
      (Cbor.map.inj (hRead.1.contents.symm.trans hItems.1.contents))
    refine ⟨plain, Describes.mono (Describes.and (Describes.same hRead hSame)
      (Describes.same hItems hSame')) fun _ _ f hf e _ x hx => ?_⟩
    exact (hFits f hf).both e x hx.1 hx.2
  tagFree := by
    rintro V _ s hFree ⟨members, h⟩
    obtain rfl := h.1.contents
    obtain ⟨plain, hSame⟩ : ∃ plain, List.Forall₂ (Same (W := .plain)) members plain := by
      refine exists_same fun m hm => ?_
      have hUntagged : ∀ c ∈ V.elements m.2, c.isTag = false := fun c hc =>
        isTag_of_tagFree (tagFree_of_mem hFree
          (List.mem_flatMap.mpr ⟨m, hm, List.mem_cons_of_mem _ hc⟩))
      obtain ⟨c, hElements⟩ := V.untagged m.2 hUntagged
      exact ⟨⟨c, hUntagged c (hElements ▸ List.mem_singleton_self c)⟩, hElements⟩
    refine ⟨plain, Describes.mono (Describes.same h hSame) fun elements hElements f hf e he x => ?_⟩
    cases hElements
    exact (hFits f hf).tagFree V e x (tagFree_of_mem hFree he)

end Members

/-! ## The maps of a request -/

theorem uniform_isTextMap {σ : Type} {L : Layout Bytes σ} (h : ∀ f ∈ L.fields, Uniform f.fits) :
    Uniform (IsTextMap L) :=
  uniform_isRecord (fun _ => rfl) (fun _ _ => Cbor.text.inj) h

theorem uniform_credentialDescriptor : Uniform (IsTextMap credentialDescriptor) :=
  uniform_isTextMap (by
    simp only [credentialDescriptor, List.forall_mem_cons]
    exact ⟨uniform_const _, uniform_const _, uniform_isArray (uniform_const _), List.forall_mem_nil _⟩)

theorem uniform_relyingParty : Uniform (IsTextMap relyingParty) :=
  uniform_isTextMap (by
    simp only [relyingParty, List.forall_mem_cons]
    exact ⟨uniform_const _, uniform_const _, List.forall_mem_nil _⟩)

theorem uniform_userEntity : Uniform (IsTextMap userEntity) :=
  uniform_isTextMap (by
    simp only [userEntity, List.forall_mem_cons]
    exact ⟨uniform_const _, uniform_const _, uniform_const _, List.forall_mem_nil _⟩)

theorem uniform_pubKeyCredParam : Uniform (IsTextMap pubKeyCredParam) :=
  uniform_isTextMap (by
    simp only [pubKeyCredParam, List.forall_mem_cons]
    exact ⟨uniform_const _, uniform_const _, List.forall_mem_nil _⟩)

theorem uniform_extensions : Uniform (IsTextMap extensions) :=
  uniform_isTextMap fun _ hf => absurd hf List.not_mem_nil

theorem uniform_optionFlags (first second noted : Bytes) (default : Bool) :
    Uniform (IsTextMap (optionFlags first second noted default)) :=
  uniform_isTextMap (by
    simp only [optionFlags, List.forall_mem_cons]
    exact ⟨uniform_const _, uniform_const _, uniform_const _, List.forall_mem_nil _⟩)

theorem uniform_makeCredential : Uniform (IsRequest makeCredential) :=
  uniform_isRecord (fun _ => rfl) (fun _ _ => Cbor.uint.inj) (by
    simp only [makeCredential, List.forall_mem_cons]
    exact ⟨uniform_const _, uniform_relyingParty, uniform_userEntity,
      uniform_isArray uniform_pubKeyCredParam, uniform_isArray uniform_credentialDescriptor,
      uniform_extensions, uniform_optionFlags _ _ _ _, uniform_const _, uniform_const _, List.forall_mem_nil _⟩)

theorem uniform_getAssertion : Uniform (IsRequest getAssertion) :=
  uniform_isRecord (fun _ => rfl) (fun _ _ => Cbor.uint.inj) (by
    simp only [getAssertion, List.forall_mem_cons]
    exact ⟨uniform_const _, uniform_const _, uniform_isArray uniform_credentialDescriptor,
      uniform_extensions, uniform_optionFlags _ _ _ _, uniform_const _, uniform_const _, List.forall_mem_nil _⟩)

/-! ## The parsers -/

section Parsers

variable {walk : Walk} {payload : Bytes}

theorem makeCredential_parseInto_eq (prior request : CTAPMakeCredentialRequest) :
    CTAPMakeCredentialRequest.parseInto walk payload prior = (true, request) ↔
      ∃ root, walk payload = some (root, []) ∧ IsRequest makeCredential .cursor root request := by
  have hClear : prior.clear = {} := rfl
  simp only [← makeCredential_parseRoot_eq, ← parsePayload_eq_some]
  unfold CTAPMakeCredentialRequest.parseInto
  rw [hClear]
  cases parsePayload walk (parseRoot CTAPMakeCredentialRequest.parseParameter [1, 2, 3, 4] {})
    payload with
  | none => exact ⟨nofun, nofun⟩
  | some r => simp

theorem getAssertion_parseInto_eq (prior request : CTAPGetAssertionRequest) :
    CTAPGetAssertionRequest.parseInto walk payload prior = (true, request) ↔
      ∃ parameters, request = { parameters with } ∧ ∃ root,
        walk payload = some (root, []) ∧ IsRequest getAssertion .cursor root parameters := by
  have hClear : prior.clear = {} := rfl
  simp only [← getAssertion_parseRoot_eq, ← parsePayload_eq_some]
  unfold CTAPGetAssertionRequest.parseInto
  rw [hClear]
  cases parsePayload walk (parseRoot CTAPGetAssertionRequest.parseParameter [1, 2] {}) payload with
  | none => simp
  | some p => simp [eq_comm]

end Parsers

/-- **The parsers accept exactly their grammar**, whatever the object held before, and then every
field is what the request says: for a payload which, as long as it is a request at all, whether a
tag is an element of its own or belongs to the item behind it, has no tag in a map that they
read. For any other payload they do not. The cursor walks over well-formed items. -/
theorem parsers_accept_grammar {walk : Walk} (hWalk : ∀ payload, walk payload = Cbor.next payload)
    (payload : Bytes) :
    ((∀ prior request, CTAPMakeCredentialRequest.parseInto walk payload prior = (true, request) ↔
        ∃ root, Cbor.next payload = some (root, []) ∧
          IsRequest makeCredential .items root request) ↔
      ∀ root request, Cbor.next payload = some (root, []) →
        IsRequest makeCredential .cursor root request ∨
          IsRequest makeCredential .items root request →
        IsRequest makeCredential .plain root request) ∧
    ((∀ prior request, CTAPGetAssertionRequest.parseInto walk payload prior = (true, request) ↔
        ∃ parameters, request = { parameters with } ∧ ∃ root,
          Cbor.next payload = some (root, []) ∧ IsRequest getAssertion .items root parameters) ↔
      ∀ root parameters, Cbor.next payload = some (root, []) →
        IsRequest getAssertion .cursor root parameters ∨
          IsRequest getAssertion .items root parameters →
        IsRequest getAssertion .plain root parameters) := by
  simp only [makeCredential_parseInto_eq, getAssertion_parseInto_eq, hWalk]
  constructor
  · rw [← uniform_makeCredential.accepts_iff]
    exact ⟨fun h => h {}, fun h _ => h⟩
  · rw [← uniform_getAssertion.accepts_iff]
    constructor
    · intro h parameters
      have hBoth := h {} { parameters with }
      simpa only [CTAPGetAssertionRequest.mk.injEq, and_true, exists_eq_left'] using hBoth
    · exact fun h _ request => exists_congr fun parameters => and_congr_right fun _ => h parameters

/-! ## A tagged member -/

theorem IsRecord.unknown {κ σ : Type} [BEq κ] [LawfulBEq κ] {key : κ → Cbor} {bound : κ → Prop}
    {L : Layout κ σ} {V : View} {elements : List Cbor} {s : σ}
    (h : IsRecord key bound L V (.map elements) s) {k : κ} (hBound : bound k)
    (hUnknown : ∀ f ∈ L.fields, f.key ≠ k) (hNew : key k ∉ elements) (item : V.Item) :
    IsRecord key bound L V (.map (elements ++ key k :: V.elements item)) s := by
  obtain ⟨members, ⟨hContents, hDistinct, hBounds⟩, hFields, hRequired, hValid⟩ := h
  have hElements := Cbor.map.inj hContents
  have hFresh : k ∉ members.map Prod.fst := by
    intro hk
    obtain ⟨m, hm, rfl⟩ := List.mem_map.mp hk
    refine hNew ?_
    rw [hElements]
    exact List.mem_flatMap.mpr ⟨m, hm, List.mem_cons_self⟩
  refine ⟨members ++ [(k, item)], ⟨?_, ?_, ?_⟩, ?_, ?_, hValid⟩
  · rw [hElements, List.flatMap_append]
    simp
  · rw [List.map_append]
    refine List.nodup_append.mpr ⟨hDistinct, List.nodup_singleton k, fun a ha b hb hEq => ?_⟩
    cases List.mem_singleton.mp hb
    cases hEq
    exact hFresh ha
  · intro m hm
    rcases List.mem_append.mp hm with hm | hm
    · exact hBounds m hm
    · cases List.mem_singleton.mp hm
      exact hBound
  · intro f hf
    have hOther : (f.key == k) = false := beq_eq_false_iff_ne.mpr (hUnknown f hf)
    rw [List.lookup_append, List.lookup_cons, hOther, List.lookup_nil, Option.or_none]
    exact hFields f hf
  · intro j hj
    rw [List.map_append]
    exact List.mem_append_left _ (hRequired j hj)

/-- A request to register a credential. -/
def registration (rpId userId : Bytes) (alg : Cbor) : List Cbor := [
  .uint 1, .bytes (List.replicate 32 0),
  .uint 2, .map [.text (text "id"), .text rpId],
  .uint 3, .map [.text (text "id"), .bytes userId],
  .uint 4, .array [.map [.text (text "type"), .text (text "public-key"), .text (text "alg"), alg]]]

/-- The same for some user of some relying party. -/
def plainRequest (alg : Cbor) : List Cbor := registration (text "a") [1] alg

theorem tagFree_plainRequest : tagFree (.map (plainRequest (.negative 6))) := by decide

theorem next_plainRequest : Cbor.next (Cbor.map (plainRequest (.negative 6))).encode =
    some (.map (plainRequest (.negative 6)), []) := rfl

theorem parsers_accept_grammar_plain : ∃ request, (CTAPMakeCredentialRequest.parseInto Cbor.next
      (Cbor.map (plainRequest (.negative 6))).encode {}) = (true, request) ∧
      IsRequest makeCredential .items (.map (plainRequest (.negative 6))) request := by
  have hAccepted : (CTAPMakeCredentialRequest.parseInto Cbor.next
      (Cbor.map (plainRequest (.negative 6))).encode {}).1 = true := by decide +kernel
  have hExact := (parsers_accept_grammar (fun _ => rfl)
    (Cbor.map (plainRequest (.negative 6))).encode).1.mpr fun root request hRoot => by
      cases next_plainRequest.symm.trans hRoot
      rintro (h | h)
      · exact uniform_makeCredential.tagFree _ _ _ tagFree_plainRequest h
      · exact uniform_makeCredential.tagFree _ _ _ tagFree_plainRequest h
  obtain ⟨root, hRoot, hRequest⟩ := (hExact {} _).mp (Prod.ext hAccepted rfl)
  cases next_plainRequest.symm.trans hRoot
  exact ⟨_, Prod.ext hAccepted rfl, hRequest⟩

/-- The same request with a member that the parser does not know, a tagged text. -/
def taggedRequest : List Cbor :=
  plainRequest (.negative 6) ++ [.uint 10, .tag 24, .text (text "x")]

/-- The grammar allows a tagged value for an unknown member, but the parser skips the tag alone,
takes the text for a key and refuses the request. -/
theorem tagged_member_refused :
    (∃ request, IsRequest makeCredential .items (.map taggedRequest) request) ∧
    Cbor.next (Cbor.map taggedRequest).encode = some (.map taggedRequest, []) ∧
    (CTAPMakeCredentialRequest.parseInto Cbor.next (Cbor.map taggedRequest).encode {}).1 =
      false := by
  have hAccepted : (CTAPMakeCredentialRequest.parseInto Cbor.next
      (Cbor.map (plainRequest (.negative 6))).encode {}).1 = true := by decide +kernel
  obtain ⟨root, hRoot, hRequest⟩ := (makeCredential_parseInto_eq {} _).mp (Prod.ext hAccepted rfl)
  cases next_plainRequest.symm.trans hRoot
  have hPlain := uniform_makeCredential.tagFree _ _ _ tagFree_plainRequest hRequest
  have hItems := uniform_makeCredential.plain .items _ _ hPlain
  refine ⟨⟨_, hItems.unknown (k := 10) trivial ?_ ?_ ⟨[24], .text (text "x"), rfl⟩⟩, ?_, ?_⟩
  · simp [makeCredential]
  · simp [plainRequest, registration]
  · rfl
  · decide +kernel

end VAuth.Ctap
