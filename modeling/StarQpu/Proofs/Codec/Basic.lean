import StarQpu.Json.Decoder
import StarQpu.Proofs.Json.Canonical
import StarQpu.Proofs.Uuid

/-!
# StarQpu.Proofs.Codec.Basic

**Reading what was written.** A decoder *reads* a value off its JSON form (`Reads`), in whatever
order the fields of the objects in it stand. Not every value can be read back: a document *gives*
only numbers that are finite, objects in canonical form, instructions that pass their checks
(`Gives`). So the law of a format says that what a document gives is read off its written form
(`Settles`), and each way of building a decoder has two lemmas: what its values are made of when a
document gives them, and how they are read from their parts.
-/

namespace StarQpu

/-! ### The order of fields -/

/-- The orders in which the fields of an object may stand. -/
inductive FieldOrder where
  /-- As they were written. -/
  | written
  /-- By their names. -/
  | sorted

namespace Json

variable {α : Type} {j : Json} {order : FieldOrder}

/-- The value with the fields of its objects in the given order. -/
def arranged (order : FieldOrder) (j : Json) : Json :=
  match order with
  | .written => j
  | .sorted => j.canonical

theorem IsCanonical.arranged (h : j.IsCanonical) : j.arranged order = j := by
  cases order with
  | written => rfl
  | sorted => exact h

theorem canonical_arranged (j : Json) : (j.arranged order).canonical = j.canonical := by
  cases order with
  | written => rfl
  | sorted => exact j.canonical_canonical

theorem arranged_ne_null (h : j ≠ .null) : j.arranged order ≠ .null := by
  cases order with
  | written => exact h
  | sorted => cases j <;> simp_all [arranged, canonical]

theorem arranged_arr (items : List Json) :
    (arr items).arranged order = .arr (items.map (·.arranged order)) := by
  cases order with
  | written => simp [arranged]
  | sorted => exact canonical_arr items

/-- The fields of an object with distinct names are put into another order, and their values are
arranged. -/
theorem exists_arranged_obj (order : FieldOrder) (encode : α → Json) {l : List (String × α)}
    (distinct : (l.map (·.1)).Nodup) : ∃ l' : List (String × α), l'.Perm l ∧
      (obj (l.map fun e => (e.1, encode e.2))).arranged order =
        .obj (l'.map fun e => (e.1, (encode e.2).arranged order)) := by
  cases order with
  | written => exact ⟨l, .refl _, rfl⟩
  | sorted =>
      refine ⟨(Table.ofList l).entries, Table.entries_ofList_perm distinct, ?_⟩
      rw [arranged, canonical_obj, List.map_map]
      refine congrArg obj (congrArg Table.entries (Table.ofList_eq_of_perm
        (t := (Table.ofList l).mapValues fun x => (encode x).canonical) ?_))
      exact (Table.entries_ofList_perm distinct).symm.map _

theorem toSource_ne_fault {b : Beginning} {f : Fault} : j.toSource ≠ .fault b f := by
  cases j <;> simp [toSource]

theorem toSource_eq_null_iff : j.toSource = .null ↔ j = .null := by
  cases j <;> simp [toSource]

end Json

namespace Decoder

variable {α β ρ : Type} {d : Decoder α} {encode : α → Json} {j : Json} {x : α} {o : Origin}
  {s : Source}

/-- The value is read off its JSON form, in whatever order the fields stand. -/
def Reads (d : Decoder α) (j : Json) (x : α) : Prop :=
  ∀ order, d.ofValue (j.arranged order) = .ok x

/-- Some document gives the value. -/
def Gives (d : Decoder α) (x : α) : Prop := ∃ o s, d o s = .ok x

/-- What a document gives is read off its written form. -/
def Settles (d : Decoder α) (encode : α → Json) : Prop := ∀ x, Gives d x → Reads d (encode x) x

theorem liftFault_eq_ok_iff {r : Except Fault α} : liftFault r = .ok x ↔ r = .ok x := by
  cases r <;> simp [liftFault]

theorem liftBuild_eq_ok_iff {r : Except BuildError α} : liftBuild r = .ok x ↔ r = .ok x := by
  cases r <;> simp [liftBuild]

theorem required_eq_ok_iff {v : Option α} : required v = .ok x ↔ v = some x := by
  cases v <;> simp [required, mismatch]

theorem unexpected_ne_ok : unexpected s ≠ (.ok x : Decoded α) := by
  cases s <;> simp [unexpected, mismatch]

/-! ### Simple values -/

/-- A value without fields has them in any order. -/
theorem reads_of_canonical (h : j.IsCanonical) (hread : d.ofValue j = .ok x) : Reads d j x := by
  intro order
  rw [h.arranged, hread]

theorem reads_string (t : String) : Reads string (.str t) t := reads_of_canonical rfl rfl

theorem reads_uuid (u : Uuid) : Reads uuid (.str u.render) u := by
  refine reads_of_canonical rfl ?_
  simp [ofValue, Json.toSource, uuid, string, Uuid.ofText?_render]

theorem reads_integer {low high n : Int} (h : low ≤ n ∧ n ≤ high) :
    Reads (integer low high) (.num (.int n)) n :=
  reads_of_canonical rfl (if_pos h)

theorem gives_integer {low high n : Int} (h : Gives (integer low high) n) :
    low ≤ n ∧ n ≤ high := by
  obtain ⟨o, s, h⟩ := h
  unfold integer at h
  split at h
  · split at h
    · next hbounds =>
        cases h
        exact hbounds
    · cases h
  · exact absurd h unexpected_ne_ok

theorem reads_binary64 {x : Binary64} (h : x.isFinite = true) :
    Reads binary64 (.ofBinary64 x) x := by
  rw [Json.ofBinary64, if_pos h]
  exact reads_of_canonical rfl (if_pos h)

theorem gives_binary64 {x : Binary64} (h : Gives binary64 x) : x.isFinite = true := by
  obtain ⟨o, s, h⟩ := h
  unfold binary64 at h
  split at h
  · split at h
    · next hfinite =>
        cases h
        exact hfinite
    · cases h
  · dsimp only at h
    split at h
    · next hfinite =>
        cases h
        exact hfinite
    · cases h
  · exact absurd h unexpected_ne_ok

theorem reads_json (h : j.IsCanonical) : Reads json j j := by
  intro order
  rw [ofValue, json, liftFault_eq_ok_iff, Json.toJson_toSource, Json.canonical_arranged, h]

theorem gives_json (h : Gives json j) : j.IsCanonical := by
  obtain ⟨o, s, h⟩ := h
  exact Source.canonical_of_toJson s (liftFault_eq_ok_iff.1 h)

theorem reads_variant {variants : List (String × α)} {name : String}
    (h : variants.lookup name = some x) : Reads (variant variants) (.str name) x := by
  refine reads_of_canonical rfl ?_
  simp [ofValue, Json.toSource, variant, h]

/-! ### Values or null -/

theorem option_eq_map (hnull : s ≠ .null) (hfault : ∀ f, s ≠ .fault .null f) :
    option d o s = (d o s).map some := by
  unfold option
  split
  · exact absurd rfl hnull
  · exact absurd rfl (hfault _)
  · rfl

theorem reads_none : Reads (option d) .null none := reads_of_canonical rfl rfl

theorem reads_some (h : Reads d j x) (hj : j ≠ .null) : Reads (option d) j (some x) := by
  intro order
  rw [ofValue, option_eq_map (mt Json.toSource_eq_null_iff.1 (Json.arranged_ne_null hj))
    fun _ => Json.toSource_ne_fault]
  exact map_eq_ok_iff.2 ⟨x, h order, rfl⟩

/-- An optional value is written as itself or as null. -/
theorem reads_orNull {v : Option α} (h : ∀ x, v = some x → Reads d (encode x) x)
    (hencode : ∀ x, v = some x → encode x ≠ .null) :
    Reads (option d) ((v.map encode).getD .null) v := by
  cases v with
  | none => exact reads_none
  | some x => exact reads_some (h x rfl) (hencode x rfl)

theorem exists_of_option (h : option d o s = .ok (some x)) : s ≠ .null ∧ d o s = .ok x := by
  unfold option at h
  split at h
  · cases h
  · cases h
  · next hnull _ =>
      obtain ⟨y, hy, heq⟩ := map_eq_ok_iff.1 h
      cases heq
      exact ⟨hnull, hy⟩

theorem gives_option (h : Gives (option d) (some x)) : Gives d x := by
  obtain ⟨o, s, h⟩ := h
  exact ⟨o, s, (exists_of_option h).2⟩

/-- Null alone is no value. -/
theorem gives_option_json (h : Gives (option json) (some j)) : j.IsCanonical ∧ j ≠ .null := by
  refine ⟨gives_json (gives_option h), fun heq => ?_⟩
  obtain ⟨o, s, h⟩ := h
  obtain ⟨hnull, hread⟩ := exists_of_option h
  rw [json, liftFault_eq_ok_iff, heq] at hread
  cases s with
  | null => exact hnull rfl
  | arr items cut => simp [Source.toJson, do_eq_ok_iff, pure, Except.pure] at hread
  | obj fields ending => simp [Source.toJson, do_eq_ok_iff, pure, Except.pure] at hread
  | _ => simp [Source.toJson] at hread

/-! ### Lists -/

theorem items_map_eq_ok {f : α → Source} {l : List α} (h : ∀ x ∈ l, d o (f x) = .ok x) :
    items d o (l.map f) = .ok l := by
  induction l with
  | nil => rfl
  | cons x rest ih =>
      obtain ⟨hx, hrest⟩ := List.forall_mem_cons.1 h
      rw [List.map_cons, items, hx, ih hrest]
      rfl

theorem reads_list {l : List α} (h : ∀ x ∈ l, Reads d (encode x) x) :
    Reads (list d) (.arr (l.map encode)) l := by
  intro order
  rw [Json.arranged_arr, ofValue, Json.toSource, itemsToSource_eq_map, List.map_map,
    List.map_map]
  exact do_eq_ok_iff.2 ⟨l, items_map_eq_ok fun x hx => h x hx order, rfl⟩

theorem gives_items {sources : List Source} {l : List α} (h : items d o sources = .ok l) :
    ∀ x ∈ l, Gives d x := by
  induction sources generalizing l with
  | nil =>
      cases h
      exact fun x hx => absurd hx List.not_mem_nil
  | cons s rest ih =>
      rw [items, do_eq_ok_iff] at h
      obtain ⟨x, hx, h⟩ := h
      rw [do_eq_ok_iff] at h
      obtain ⟨l', hl', h⟩ := h
      cases h
      exact List.forall_mem_cons.2 ⟨⟨o, s, hx⟩, ih hl'⟩

theorem gives_list {l : List α} (h : Gives (list d) l) : ∀ x ∈ l, Gives d x := by
  obtain ⟨o, s, h⟩ := h
  unfold list at h
  split at h
  · rw [do_eq_ok_iff] at h
    obtain ⟨l', hl', h⟩ := h
    rw [check_do_eq_ok_iff] at h
    cases h.2
    exact gives_items hl'
  · exact absurd h unexpected_ne_ok

theorem Settles.list (h : Settles d encode) :
    Settles (list d) fun l => .arr (l.map encode) :=
  fun _ hl => reads_list fun x hx => h x (gives_list hl x hx)

/-! ### Maps by field names -/

theorem entries_map_eq_ok {f : α → Source} {l : List (String × α)} {filed : Table String α}
    (h : ∀ e ∈ l, d o (f e.2) = .ok e.2) :
    entries d o (l.map fun e => (e.1, f e.2)) filed =
      .ok (l.foldl (fun t e => t.insert e.1 e.2) filed) := by
  induction l generalizing filed with
  | nil => rfl
  | cons e rest ih =>
      obtain ⟨he, hrest⟩ := List.forall_mem_cons.1 h
      rw [List.map_cons, entries, he]
      exact ih hrest

/-- Fields with distinct names are read as the table that they fill. -/
theorem reads_table_ofList {l : List (String × α)} (distinct : (l.map (·.1)).Nodup)
    (h : ∀ e ∈ l, Reads d (encode e.2) e.2) :
    Reads (table d) (.obj (l.map fun e => (e.1, encode e.2))) (.ofList l) := by
  intro order
  obtain ⟨l', hperm, hobj⟩ := Json.exists_arranged_obj order encode distinct
  rw [hobj, ofValue, Json.toSource, fieldsToSource_eq_map, List.map_map, table]
  have hread := @entries_map_eq_ok _ d .value (fun x => ((encode x).arranged order).toSource) l'
    .empty fun e he => h e (hperm.mem_iff.1 he) order
  have hfilled : Table.ofList l' = Table.ofList l :=
    Table.ofList_eq_of_perm (hperm.trans (Table.entries_ofList_perm distinct).symm)
  rw [← hfilled]
  exact do_eq_ok_iff.2 ⟨_, hread, rfl⟩

theorem reads_table {t : Table String α} (h : ∀ v ∈ t.values, Reads d (encode v) v) :
    Reads (table d) (.ofTable encode t) t := by
  have hread := reads_table_ofList t.nodup_keys fun e he =>
    h e.2 (List.mem_map.2 ⟨e, he, rfl⟩)
  rw [Table.ofList_eq_of_perm (List.Perm.refl _)] at hread
  exact hread

theorem gives_entries {fields : List (String × Source)} {filed t : Table String α}
    (hfiled : ∀ v ∈ filed.values, Gives d v) (h : entries d o fields filed = .ok t) :
    ∀ v ∈ t.values, Gives d v := by
  induction fields generalizing filed with
  | nil =>
      cases h
      exact hfiled
  | cons e rest ih =>
      rw [entries, do_eq_ok_iff] at h
      obtain ⟨x, hx, h⟩ := h
      refine ih (fun v hv => ?_) h
      obtain ⟨e', he', rfl⟩ := List.mem_map.1 hv
      rcases Table.mem_insertEntry he' with rfl | he'
      · exact ⟨o, e.2, hx⟩
      · exact hfiled _ (List.mem_map.2 ⟨e', he', rfl⟩)

theorem gives_table {t : Table String α} (h : Gives (table d) t) : ∀ v ∈ t.values, Gives d v := by
  obtain ⟨o, s, h⟩ := h
  unfold table at h
  split at h
  · rw [do_eq_ok_iff] at h
    obtain ⟨t', ht', h⟩ := h
    rw [check_do_eq_ok_iff] at h
    cases h.2
    exact gives_entries (fun v hv => absurd hv List.not_mem_nil) ht'
  · exact absurd h unexpected_ne_ok

theorem Settles.table (h : Settles d encode) : Settles (table d) (.ofTable encode) :=
  fun _ ht => reads_table fun v hv => h v (gives_table ht v hv)

end Decoder

end StarQpu
