import Mathlib.Data.List.Pairwise
import StarQpu.Proofs.Codec.Basic

/-!
# StarQpu.Proofs.Codec.Record

**Reading structures.** A structure is read through a record of the fields that were met. A field
fills its own place there and no other, so the order in which the fields are met makes no difference
(`meetFields_perm`), and what was written is read as what the fields give in the order of their
declaration (`MeetsAll`, `reads_record`). In the other direction, whatever stands in a place of the
record was given by a document (`gives_record`), be the structure an object or a list.
-/

namespace StarQpu.Decoder

variable {α β ρ : Type} {d : Decoder α} {d' : Decoder β} {encode : α → Json} {j : Json} {x : α}
  {o : Origin} {s : Source} {get : ρ → Option α} {set : ρ → α → ρ} {get' : ρ → Option β}
  {set' : ρ → β → ρ} {r r₁ r' start : ρ} {slots : List (String × Slot ρ)} {needed : Nat}

/-! ### Fields that are met -/

theorem slot_eq_ok_iff :
    slot get set d r o s = .ok r' ↔ get r = none ∧ ∃ x, d o s = .ok x ∧ r' = set r x := by
  unfold slot
  cases hget : get r with
  | some y => simp [mismatch]
  | none => simp [map_eq_ok_iff, eq_comm]

/-- Two fields may be met in either order. -/
def Commutes (f g : Slot ρ) : Prop := ∀ r o s s' r',
  ((f r o s).bind fun r₁ => g r₁ o s') = .ok r' ↔ ((g r o s').bind fun r₁ => f r₁ o s) = .ok r'

theorem Commutes.symm {f g : Slot ρ} (h : Commutes f g) : Commutes g f :=
  fun r o s s' r' => (h r o s' s r').symm

@[simp] theorem commutes_slot (hget : ∀ r x, get' (set r x) = get' r)
    (hget' : ∀ r y, get (set' r y) = get r)
    (hset : ∀ r x y, set' (set r x) y = set (set' r y) x) :
    Commutes (slot get set d) (slot get' set' d') := by
  intro r o s s' r'
  simp only [bind_eq_ok_iff, slot_eq_ok_iff]
  constructor
  · intro h
    obtain ⟨_, ⟨hfree, x, hx, rfl⟩, hfree', y, hy, rfl⟩ := h
    exact ⟨set' r y, ⟨hget r x ▸ hfree', y, hy, rfl⟩, (hget' r y).trans hfree, x, hx, hset r x y⟩
  · intro h
    obtain ⟨_, ⟨hfree', y, hy, rfl⟩, hfree, x, hx, rfl⟩ := h
    exact ⟨set r x, ⟨hget' r y ▸ hfree, x, hx, rfl⟩, (hget r x).trans hfree', y, hy,
      (hset r x y).symm⟩

/-- A field that is skipped may be met at any time. -/
theorem commutes_skip {g : Slot ρ} : Commutes (fun r _ _ => .ok r) g := by
  intro r o s s' r'
  simp only [bind_eq_ok_iff]
  simp

/-- What a field of the given name does; one that is not known is skipped. -/
def filler (slots : List (String × Slot ρ)) (name : String) : Slot ρ :=
  (slots.lookup name).getD fun r _ _ => .ok r

theorem meetFields_cons {e : String × Source} {fields : List (String × Source)} :
    meetFields slots o r (e :: fields) =
      (filler slots e.1 r o e.2).bind fun r₁ => meetFields slots o r₁ fields := by
  rw [meetFields, filler]
  cases slots.lookup e.1 <;> rfl

/-- Fields of different names may be met in any order. -/
theorem meetFields_perm
    (commute : ∀ n m, n ≠ m → Commutes (filler slots n) (filler slots m))
    {fields fields' : List (String × Source)} (hperm : fields.Perm fields')
    (distinct : (fields.map (·.1)).Nodup) (h : meetFields slots o r fields = .ok r') :
    meetFields slots o r fields' = .ok r' := by
  induction hperm generalizing r with
  | nil => exact h
  | cons e _ ih =>
      rw [meetFields_cons, bind_eq_ok_iff] at h ⊢
      obtain ⟨r₁, hfirst, h⟩ := h
      exact ⟨r₁, hfirst, ih (List.nodup_cons.1 distinct).2 h⟩
  | swap e e' rest =>
      have hne : e'.1 ≠ e.1 := by
        intro heq
        simp [heq] at distinct
      simp only [meetFields_cons, bind_eq_ok_iff] at h ⊢
      obtain ⟨r₁, hfirst, r₂, hsecond, h⟩ := h
      have hswapped := (commute _ _ hne _ _ _ _ _).1 (bind_eq_ok_iff.2 ⟨r₁, hfirst, hsecond⟩)
      obtain ⟨r₁', hfirst', hsecond'⟩ := bind_eq_ok_iff.1 hswapped
      exact ⟨r₁', hfirst', r₂, hsecond', h⟩
  | trans hfirst _ ih ih' =>
      exact ih' ((hfirst.map _).nodup_iff.1 distinct) (ih distinct h)

/-! ### Structures -/

/-- Different fields of a structure have different names and fill different places. -/
structure Independent (slots : List (String × Slot ρ)) : Prop where
  distinct : (slots.map (·.1)).Nodup
  commute : slots.Pairwise fun p q => Commutes p.2 q.2

theorem Independent.commutes (h : Independent slots) {name name' : String} (hne : name ≠ name') :
    Commutes (filler slots name) (filler slots name') := by
  have : Std.Symm fun p q : String × Slot ρ => Commutes p.2 q.2 := ⟨fun _ _ => Commutes.symm⟩
  unfold filler
  cases hf : slots.lookup name with
  | none => exact commutes_skip
  | some f =>
      cases hg : slots.lookup name' with
      | none => exact commutes_skip.symm
      | some g =>
          exact h.commute.forall (Table.mem_of_lookup hf) (Table.mem_of_lookup hg)
            fun heq => hne (congrArg Prod.fst heq)

/-- What it does to the record to meet a field, or to find it absent. -/
def Meets (f : Slot ρ) (r : ρ) (v : Option Json) (r' : ρ) : Prop :=
  match v with
  | some j => ∀ order, f r .value (j.arranged order).toSource = .ok r'
  | none => r' = r

/-- What it does to the record to meet the fields in the order of their declaration. -/
inductive MeetsAll : List (String × Slot ρ) → List (String × Option Json) → ρ → ρ → Prop where
  | nil {r : ρ} : MeetsAll [] [] r r
  | cons {name : String} {f : Slot ρ} {v : Option Json} {slots : List (String × Slot ρ)}
      {fields : List (String × Option Json)} {r r₁ r' : ρ} (first : Meets f r v r₁)
      (rest : MeetsAll slots fields r₁ r') :
      MeetsAll ((name, f) :: slots) ((name, v) :: fields) r r'

theorem meets_slot {get : ρ → Option α} {set : ρ → α → ρ} (hfree : get r = none)
    (h : Reads d j x) : Meets (slot get set d) r (some j) (set r x) :=
  fun order => slot_eq_ok_iff.2 ⟨hfree, x, h order, rfl⟩

/-- What an optional field filled is what it holds, also when it was left out. -/
@[simp] theorem getD_map_some (v : Option α) : (v.map some).getD none = v := by
  cases v <;> rfl

/-- An optional field that is left out when there is nothing to write. -/
theorem meets_option {get : ρ → Option (Option α)} {set : ρ → Option α → ρ} {v : Option α}
    (put : ρ → Option (Option α) → ρ) (hfree : get r = none) (hnone : put r none = r)
    (hsome : ∀ x, put r (some x) = set r x) (h : ∀ x, v = some x → Reads d (encode x) x)
    (hencode : ∀ x, v = some x → encode x ≠ .null) :
    Meets (slot get set (option d)) r (v.map encode) (put r (v.map some)) := by
  cases v with
  | none => exact hnone
  | some x =>
      rw [Option.map_some, Option.map_some, hsome]
      exact meets_slot hfree (reads_some (h x rfl) (hencode x rfl))

theorem MeetsAll.names_eq {fields : List (String × Option Json)}
    (h : MeetsAll slots fields r r') : fields.map (·.1) = slots.map (·.1) := by
  induction h with
  | nil => rfl
  | cons _ _ ih => rw [List.map_cons, List.map_cons, ih]

/-- The fields that are present, as they are written. -/
def presentFields (fields : List (String × Option Json)) : List (String × Json) :=
  fields.filterMap fun (k, v) => v.map (k, ·)

theorem presentFields_names_sublist (fields : List (String × Option Json)) :
    ((presentFields fields).map (·.1)).Sublist (fields.map (·.1)) := by
  induction fields with
  | nil => exact .slnil
  | cons e rest ih =>
      obtain ⟨name, v⟩ := e
      cases v with
      | none => exact ih.cons name
      | some j => exact ih.cons_cons name

theorem meetFields_of_meetsAll {all : List (String × Slot ρ)} {fields : List (String × Option Json)}
    (h : MeetsAll slots fields r r') (hall : ∀ p ∈ slots, all.lookup p.1 = some p.2)
    (order : FieldOrder) : meetFields all .value r
      ((presentFields fields).map fun e => (e.1, (e.2.arranged order).toSource)) = .ok r' := by
  induction h with
  | nil => rfl
  | @cons name f v slots fields r r₁ r' first _ ih =>
      obtain ⟨hlookup, hall⟩ := List.forall_mem_cons.1 hall
      cases v with
      | none =>
          obtain rfl : r₁ = r := first
          exact ih hall
      | some j =>
          have hfill : filler all name = f := by rw [filler, hlookup, Option.getD_some]
          refine meetFields_cons.trans ?_
          rw [hfill]
          exact bind_eq_ok_iff.2 ⟨r₁, first order, ih hall⟩

/-- A structure is read as the record that its fields give in the order of their declaration. -/
theorem reads_record {fields : List (String × Option Json)} (independent : Independent slots)
    (h : MeetsAll slots fields start r) :
    Reads (record slots needed start) (.ofPresent fields) r := by
  intro order
  have hslots : ∀ p ∈ slots, slots.lookup p.1 = some p.2 := fun p hp =>
    Table.lookup_of_nodup independent.distinct hp
  have distinct : ((presentFields fields).map (·.1)).Nodup :=
    (h.names_eq ▸ independent.distinct).sublist (presentFields_names_sublist fields)
  obtain ⟨l', hperm, hobj⟩ := Json.exists_arranged_obj order id distinct
  have hread := meetFields_of_meetsAll h hslots order
  have hwritten : Json.ofPresent fields =
      .obj ((presentFields fields).map fun e => (e.1, id e.2)) :=
    congrArg Json.obj (List.map_id _).symm
  rw [hwritten, hobj, ofValue, Json.toSource, fieldsToSource_eq_map, List.map_map]
  refine do_eq_ok_iff.2 ⟨r, meetFields_perm (fun _ _ => independent.commutes)
    (hperm.symm.map _) ?_ hread, rfl⟩
  rw [List.map_map]
  exact distinct

/-- A value that is built from a structure is read as what the fields give. -/
theorem reads_build {fields : List (String × Option Json)} {build : ρ → Decoded α}
    (independent : Independent slots) (h : MeetsAll slots fields start r)
    (hbuild : build r = .ok x) :
    Reads (fun o s => record slots needed start o s >>= build) (.ofPresent fields) x :=
  fun order => do_eq_ok_iff.2 ⟨r, reads_record independent h order, hbuild⟩

/-! ### What a document gives to a structure -/

/-- What a field leaves in a place of the record is what was there, or what a document gives. -/
def Fills (d : Decoder α) (get : ρ → Option α) (f : Slot ρ) : Prop := ∀ r o s r',
  f r o s = .ok r' → get r' = get r ∨ ∃ x, get r' = some x ∧ Gives d x

@[simp] theorem fills_slot {get : ρ → Option α} {set : ρ → α → ρ}
    (hset : ∀ r x, get (set r x) = some x) : Fills d get (slot get set d) := by
  intro r o s r' h
  obtain ⟨-, x, hx, rfl⟩ := slot_eq_ok_iff.1 h
  exact .inr ⟨x, hset r x, o, s, hx⟩

/-- A field with a place of its own leaves the others as they are. -/
@[simp] theorem fills_of_keeps (hset : ∀ r y, get (set' r y) = get r) :
    Fills d get (slot get' set' d') := by
  intro r o s r' h
  obtain ⟨-, y, -, rfl⟩ := slot_eq_ok_iff.1 h
  exact .inl (hset r y)

theorem gives_after {f : Slot ρ} (hfill : Fills d get f) (hr : ∀ x, get r = some x → Gives d x)
    (h : f r o s = .ok r') : ∀ x, get r' = some x → Gives d x := by
  intro x hx
  rcases hfill _ _ _ _ h with hkept | ⟨y, hy, hgives⟩
  · exact hr x (hkept ▸ hx)
  · rw [hy] at hx
    cases hx
    exact hgives

theorem fills_filler (hfill : ∀ p ∈ slots, Fills d get p.2) (name : String) :
    Fills d get (filler slots name) := by
  unfold filler
  cases hf : slots.lookup name with
  | none =>
      rintro r o s _ ⟨⟩
      exact .inl rfl
  | some f => exact hfill _ (Table.mem_of_lookup hf)

theorem gives_meetFields (hfill : ∀ p ∈ slots, Fills d get p.2)
    {fields : List (String × Source)} (hr : ∀ x, get r = some x → Gives d x)
    (h : meetFields slots o r fields = .ok r') : ∀ x, get r' = some x → Gives d x := by
  induction fields generalizing r with
  | nil =>
      cases h
      exact hr
  | cons e rest ih =>
      rw [meetFields_cons, bind_eq_ok_iff] at h
      obtain ⟨r₁, hfirst, h⟩ := h
      exact ih (gives_after (fills_filler hfill e.1) hr hfirst) h

theorem gives_meetItems {left : List (String × Slot ρ)} {sources surplus : List Source}
    (hfill : ∀ p ∈ slots, Fills d get p.2) (hr : ∀ x, get r = some x → Gives d x)
    (h : meetItems o r slots sources = .ok (r', left, surplus)) :
    ∀ x, get r' = some x → Gives d x := by
  induction slots generalizing r sources with
  | nil =>
      cases h
      exact hr
  | cons p slots ih =>
      obtain ⟨hfirst, hrest⟩ := List.forall_mem_cons.1 hfill
      cases sources with
      | nil =>
          cases h
          exact hr
      | cons s sources =>
          rw [meetItems, do_eq_ok_iff] at h
          obtain ⟨r₁, hmeet, h⟩ := h
          exact ih hrest (gives_after hfirst hr hmeet) h

/-- What stands in a place of the record was given by a document. -/
theorem gives_record (get : ρ → Option α) (h : record slots needed start o s = .ok r)
    (hstart : get start = none) (hfill : ∀ p ∈ slots, Fills d get p.2) :
    ∀ x, get r = some x → Gives d x := by
  have hr : ∀ x, get start = some x → Gives d x := by
    intro x hx
    rw [hstart] at hx
    cases hx
  unfold record at h
  split at h
  · rw [do_eq_ok_iff] at h
    obtain ⟨r', hmeet, h⟩ := h
    rw [check_do_eq_ok_iff] at h
    cases h.2
    exact gives_meetFields hfill hr hmeet
  · rw [do_eq_ok_iff] at h
    obtain ⟨⟨r', left, surplus⟩, hmeet, h⟩ := h
    dsimp only at h
    split at h
    · cases h
    · rw [check_do_eq_ok_iff] at h
      obtain ⟨-, h⟩ := h
      split at h
      · cases h
      · cases h
        exact gives_meetItems hfill hr hmeet
  · exact absurd h unexpected_ne_ok

/-- The same for a place that counts as empty when its field was left out. -/
theorem gives_of_getD {place : Option (Option α)} {d : Decoder (Option α)}
    (h : ∀ v, place = some v → Gives d v) (hx : place.getD none = some x) : Gives d (some x) := by
  cases place with
  | none => cases hx
  | some v => exact h (some x) (congrArg some hx)

/-- A value that is built from a structure was built from a record that was read. -/
theorem exists_record_of_gives {build : ρ → Decoded α}
    (h : Gives (fun o s => record slots needed start o s >>= build) x) :
    ∃ o s r, record slots needed start o s = .ok r ∧ build r = .ok x := by
  obtain ⟨o, s, h⟩ := h
  obtain ⟨r, hr, hbuild⟩ := do_eq_ok_iff.1 h
  exact ⟨o, s, r, hr, hbuild⟩

end StarQpu.Decoder
