import Mathlib.Data.List.Basic

/-!
# Records read member by member

A record comes as a list of members, keys with values, in any order. `assignAll` takes them one
after another; `assignOnce` also refuses a key that comes twice. A relation tells of each key what
the record holds for its value, or without one. If every single assignment agrees with it
(`Reads`), then the record read from a list with distinct keys is the one it tells of
(`Reads.assignAll_eq`).
-/

namespace Format

variable {κ ν σ τ : Type}

/-- All members, one after another. -/
def assignAll (assign : κ → ν → σ → Option σ) (members : List (κ × ν)) (s : σ) : Option σ :=
  members.foldlM (fun s m => assign m.1 m.2 s) s

/-- The same, each key once; with the keys seen, the last one first. -/
def assignOnce [BEq κ] (assign : κ → ν → σ → Option σ) (members : List (κ × ν)) (s : σ × List κ) :
    Option (σ × List κ) :=
  members.foldlM (fun s m => if s.2.contains m.1 then none
    else (assign m.1 m.2 s.1).map (·, m.1 :: s.2)) s

variable {members : List (κ × ν)} {assign : κ → ν → σ → Option σ} {k : κ} {v : ν}

theorem assignAll_cons {s : σ} : assignAll assign ((k, v) :: members) s =
      (assign k v s).bind (assignAll assign members) := rfl

theorem assignOnce_cons [BEq κ] {s : σ} {seen : List κ} :
    assignOnce assign ((k, v) :: members) (s, seen) = (if seen.contains k then none
      else (assign k v s).map (·, k :: seen)).bind (assignOnce assign members) := rfl

theorem assignOnce_eq [BEq κ] [LawfulBEq κ] {s s' : σ} {seen seen' : List κ} :
    assignOnce assign members (s, seen) = some (s', seen') ↔
      (members.map Prod.fst).Nodup ∧ (∀ k ∈ members.map Prod.fst, k ∉ seen) ∧
        seen' = (members.map Prod.fst).reverse ++ seen ∧ assignAll assign members s = some s' := by
  induction members generalizing s seen with
  | nil =>
    constructor
    · intro h
      cases h
      exact ⟨.nil, nofun, rfl, rfl⟩
    · rintro ⟨-, -, rfl, h⟩
      cases h
      rfl
  | cons m members ih =>
    obtain ⟨k, v⟩ := m
    rw [assignOnce_cons, assignAll_cons, List.map_cons, List.nodup_cons, List.forall_mem_cons,
      List.reverse_cons, List.append_assoc]
    by_cases hSeen : seen.contains k = true
    · rw [if_pos hSeen]
      exact ⟨nofun, fun h => absurd (List.contains_iff_mem.mp hSeen) h.2.1.1⟩
    rw [if_neg hSeen]
    have hNew : k ∉ seen := fun h => hSeen (List.contains_iff_mem.mpr h)
    cases assign k v s with
    | none => exact ⟨nofun, fun h => nomatch h.2.2.2⟩
    | some s₁ =>
      refine Iff.trans (@ih s₁ (k :: seen)) ?_
      constructor
      · rintro ⟨hNodup, hFresh, hKeys, hRest⟩
        refine ⟨⟨fun hAgain => hFresh k hAgain List.mem_cons_self, hNodup⟩, ⟨hNew, ?_⟩, hKeys,
          hRest⟩
        exact fun j hj h => hFresh j hj (List.mem_cons_of_mem _ h)
      · rintro ⟨⟨hOnce, hNodup⟩, ⟨-, hFresh⟩, hKeys, hRest⟩
        refine ⟨hNodup, fun j hj h => ?_, hKeys, hRest⟩
        rcases List.mem_cons.mp h with rfl | h
        · exact hOnce hj
        · exact hFresh j hj h

theorem assignOnce_map [BEq κ] {assign' : κ → ν → τ → Option τ} {f : σ → τ}
    (hAssign : ∀ k v s, assign' k v (f s) = (assign k v s).map f) (members : List (κ × ν)) (s : σ)
    (seen : List κ) :
    assignOnce assign' members (f s, seen) =
      (assignOnce assign members (s, seen)).map fun r => (f r.1, r.2) := by
  induction members generalizing s seen with
  | nil => rfl
  | cons m members ih =>
    obtain ⟨k, v⟩ := m
    rw [assignOnce_cons, assignOnce_cons, hAssign]
    by_cases hSeen : seen.contains k = true
    · rw [if_pos hSeen, if_pos hSeen]
      rfl
    rw [if_neg hSeen, if_neg hSeen]
    cases assign k v s with
    | none => rfl
    | some s' => exact ih s' (k :: seen)

/-! ## What the members tell of the record -/

/-- One assignment after another makes true what `tells` tells of each key, with its value or
without one. -/
structure Reads (assign : κ → ν → σ → Option σ) (tells : κ → Option ν → σ → Prop) (initial : σ) :
    Prop where
  initial : ∀ k, tells k none initial
  own : ∀ k v s s', assign k v s = some s' → tells k none s → tells k (some v) s'
  other : ∀ k v s s', assign k v s = some s' → ∀ j o, j ≠ k → tells j o s → tells j o s'
  accepts : ∀ k v s', tells k (some v) s' → ∀ s, (assign k v s).isSome
  unique : ∀ (o : κ → Option ν) s s', (∀ k, tells k (o k) s) → (∀ k, tells k (o k) s') → s = s'

theorem mem_of_lookup [BEq κ] [LawfulBEq κ] (h : members.lookup k = some v) : (k, v) ∈ members := by
  obtain ⟨before, after, rfl, -⟩ := List.lookup_eq_some_iff.mp h
  exact List.mem_append_right _ List.mem_cons_self

theorem lookup_of_mem [BEq κ] [LawfulBEq κ] (hNodup : (members.map Prod.fst).Nodup)
    (h : (k, v) ∈ members) : members.lookup k = some v := by
  induction members with
  | nil => cases h
  | cons m members ih =>
    obtain ⟨j, w⟩ := m
    rw [List.map_cons, List.nodup_cons] at hNodup
    rw [List.lookup_cons]
    rcases List.mem_cons.mp h with hHead | hTail
    · cases hHead
      rw [beq_self_eq_true]
    · have hOther : (k == j) = false :=
        beq_eq_false_iff_ne.mpr fun hEq =>
          hNodup.1 (List.mem_map.mpr ⟨(k, v), hTail, hEq⟩)
      rw [hOther]
      exact ih hNodup.2 hTail

section Reads

variable {assign : κ → ν → σ → Option σ} {tells : κ → Option ν → σ → Prop} {initial s s' : σ}
  {members : List (κ × ν)}

theorem Reads.keeps (hReads : Reads assign tells initial)
    (h : assignAll assign members s = some s') {k : κ} (hAbsent : k ∉ members.map Prod.fst)
    {o : Option ν} (hTells : tells k o s) : tells k o s' := by
  induction members generalizing s with
  | nil =>
    cases h
    exact hTells
  | cons m members ih =>
    obtain ⟨j, v⟩ := m
    rw [List.map_cons, List.mem_cons, not_or] at hAbsent
    obtain ⟨s₁, hStep, hRest⟩ := Option.bind_eq_some_iff.mp h
    exact ih hRest hAbsent.2 (hReads.other j v s s₁ hStep k o hAbsent.1 hTells)

theorem Reads.assigned [BEq κ] [LawfulBEq κ] (hReads : Reads assign tells initial)
    (hNodup : (members.map Prod.fst).Nodup) (h : assignAll assign members s = some s') {k : κ}
    (hTells : tells k none s) : tells k (members.lookup k) s' := by
  induction members generalizing s with
  | nil =>
    cases h
    exact hTells
  | cons m members ih =>
    obtain ⟨j, v⟩ := m
    rw [List.map_cons, List.nodup_cons] at hNodup
    obtain ⟨s₁, hStep, hRest⟩ := Option.bind_eq_some_iff.mp h
    rw [List.lookup_cons]
    by_cases hKey : k = j
    · subst hKey
      rw [beq_self_eq_true]
      exact hReads.keeps hRest hNodup.1 (hReads.own k v s s₁ hStep hTells)
    · rw [beq_eq_false_iff_ne.mpr hKey]
      exact ih hNodup.2 hRest (hReads.other j v s s₁ hStep k none hKey hTells)

theorem assignAll_isSome (h : ∀ m ∈ members, ∀ s, (assign m.1 m.2 s).isSome) (s : σ) :
    (assignAll assign members s).isSome := by
  induction members generalizing s with
  | nil => rfl
  | cons m members ih =>
    obtain ⟨s₁, hStep⟩ := Option.isSome_iff_exists.mp (h m List.mem_cons_self s)
    show ((assign m.1 m.2 s).bind (assignAll assign members)).isSome
    rw [hStep]
    exact ih (fun m' hm => h m' (List.mem_cons_of_mem _ hm)) s₁

/-- **The record read is the one the members tell of.** -/
theorem Reads.assignAll_eq [BEq κ] [LawfulBEq κ] (hReads : Reads assign tells initial)
    (hNodup : (members.map Prod.fst).Nodup) :
    assignAll assign members initial = some s ↔ ∀ k, tells k (members.lookup k) s := by
  constructor
  · exact fun h k => hReads.assigned hNodup h (hReads.initial k)
  · intro hTells
    have hAll : ∀ m ∈ members, ∀ s, (assign m.1 m.2 s).isSome := by
      intro m hm
      have hValue := hTells m.1
      rw [lookup_of_mem hNodup hm] at hValue
      exact hReads.accepts m.1 m.2 s hValue
    obtain ⟨s₁, hRead⟩ := Option.isSome_iff_exists.mp (assignAll_isSome hAll initial)
    rw [hRead, hReads.unique (fun k => members.lookup k) s₁ s
      (fun k => hReads.assigned hNodup hRead (hReads.initial k)) hTells]

end Reads

end Format
