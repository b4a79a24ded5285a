import StarQpu.Json.Source
import StarQpu.Proofs.Result
import StarQpu.Proofs.Table

/-!
# StarQpu.Proofs.Json.Canonical

**The canonical form of a value.** An object in canonical form is a table of its fields, so the form
is the same for every order of the fields (`canonical_obj`), a value that was read off a document
has it (`Source.canonical_of_toJson`), and it is reached in one step (`canonical_canonical`). What
is written down is read as itself up to this form (`toJson_toSource`).
-/

namespace StarQpu

/-! ### Lists of items and fields -/

theorem itemsToSource_eq_map (items : List Json) :
    itemsToSource items = items.map Json.toSource := by
  induction items with
  | nil => rfl
  | cons item rest ih => rw [itemsToSource, ih, List.map_cons]

theorem fieldsToSource_eq_map (fields : List (String × Json)) :
    fieldsToSource fields = fields.map fun e => (e.1, e.2.toSource) := by
  induction fields with
  | nil => rfl
  | cons e rest ih => rw [fieldsToSource, ih, List.map_cons]

namespace Json

theorem canonicalItems_eq_map (items : List Json) :
    canonicalItems items = items.map canonical := by
  induction items with
  | nil => rfl
  | cons item rest ih => rw [canonicalItems, ih, List.map_cons]

/-- Filing fields into the entries of a table is filling the table. -/
theorem canonicalFields_entries (fields : List (String × Json)) (filed : Table String Json) :
    canonicalFields fields filed.entries =
      ((fields.map fun e => (e.1, e.2.canonical)).foldl
        (fun t e => t.insert e.1 e.2) filed).entries := by
  induction fields generalizing filed with
  | nil => rfl
  | cons e rest ih =>
      rw [canonicalFields, ← Table.entries_insert, ih]
      rfl

theorem canonical_arr (items : List Json) :
    (arr items).canonical = .arr (items.map canonical) := by
  rw [canonical, canonicalItems_eq_map]

/-- The fields of an object in canonical form are the entries of a table. -/
theorem canonical_obj (fields : List (String × Json)) :
    (obj fields).canonical =
      .obj (Table.ofList (fields.map fun e => (e.1, e.2.canonical))).entries := by
  rw [canonical, ← Table.entries_empty, canonicalFields_entries]
  rfl

end Json

/-! ### Writing down and reading -/

mutual

/-- A value that is written down is read in its canonical form. -/
theorem Json.toJson_toSource : ∀ j : Json, j.toSource.toJson = .ok j.canonical
  | .null => rfl
  | .bool _ => rfl
  | .num _ => rfl
  | .str _ => rfl
  | .arr items => by
      rw [Json.toSource, Source.toJson, itemsToJson_itemsToSource items]
      rfl
  | .obj fields => by
      rw [Json.toSource, Source.toJson, fieldsToJson_fieldsToSource fields []]
      rfl

/-- `Json.toJson_toSource` for the items of a list. -/
theorem itemsToJson_itemsToSource : ∀ items : List Json,
    itemsToJson (itemsToSource items) = .ok (Json.canonicalItems items)
  | [] => rfl
  | item :: rest => by
      rw [itemsToSource, itemsToJson, Json.toJson_toSource item, itemsToJson_itemsToSource rest]
      rfl

/-- `Json.toJson_toSource` for the fields of an object. -/
theorem fieldsToJson_fieldsToSource : ∀ (fields filed : List (String × Json)),
    fieldsToJson (fieldsToSource fields) filed = .ok (Json.canonicalFields fields filed)
  | [], _ => rfl
  | (k, v) :: rest, filed => by
      rw [fieldsToSource, fieldsToJson, Json.toJson_toSource v]
      exact fieldsToJson_fieldsToSource rest (Table.insertEntry k v.canonical filed)

end

/-! ### What was read -/

/-- Is the value its own canonical form? -/
def Json.IsCanonical (j : Json) : Prop := j.canonical = j

theorem Json.IsCanonical.arr {items : List Json} (h : ∀ j ∈ items, j.IsCanonical) :
    (Json.arr items).IsCanonical := by
  rw [IsCanonical, canonical_arr]
  exact congrArg Json.arr (List.map_congr_left h |>.trans (List.map_id _))

theorem Json.IsCanonical.obj {t : Table String Json} (h : ∀ e ∈ t.entries, e.2.IsCanonical) :
    (Json.obj t.entries).IsCanonical := by
  rw [IsCanonical, canonical_obj]
  have hsame : (t.entries.map fun e => (e.1, e.2.canonical)) = t.entries := by
    refine (List.map_congr_left fun e he => ?_).trans (List.map_id _)
    exact Prod.ext rfl (h e he)
  rw [hsame, Table.ofList_eq_of_perm (List.Perm.refl _)]

mutual

/-- A value that was read off a document is canonical. -/
theorem Source.canonical_of_toJson : ∀ (s : Source) {j : Json}, s.toJson = .ok j → j.IsCanonical
  | .null, _, h => by cases h; rfl
  | .bool _, _, h => by cases h; rfl
  | .num _, _, h => by cases h; rfl
  | .str _, _, h => by cases h; rfl
  | .arr items cut, _, h => by
      rw [Source.toJson, do_eq_ok_iff] at h
      obtain ⟨values, hvalues, h⟩ := h
      rw [check_do_eq_ok_iff] at h
      cases h.2
      exact Json.IsCanonical.arr (canonical_of_itemsToJson items hvalues)
  | .obj fields ending, _, h => by
      rw [Source.toJson, do_eq_ok_iff] at h
      obtain ⟨values, hvalues, h⟩ := h
      rw [check_do_eq_ok_iff] at h
      cases h.2
      obtain ⟨t, rfl, ht⟩ := @canonical_of_fieldsToJson fields .empty _
        (fun e he => absurd he List.not_mem_nil) hvalues
      exact Json.IsCanonical.obj ht
  | .fault _ _, _, h => by cases h

/-- `Source.canonical_of_toJson` for the items of a list. -/
theorem canonical_of_itemsToJson : ∀ (items : List Source) {values : List Json},
    itemsToJson items = .ok values → ∀ j ∈ values, j.IsCanonical
  | [], _, h => by
      cases h
      exact fun j hj => absurd hj List.not_mem_nil
  | item :: rest, _, h => by
      rw [itemsToJson, do_eq_ok_iff] at h
      obtain ⟨value, hvalue, h⟩ := h
      rw [do_eq_ok_iff] at h
      obtain ⟨values, hvalues, h⟩ := h
      cases h
      exact List.forall_mem_cons.2
        ⟨Source.canonical_of_toJson item hvalue, canonical_of_itemsToJson rest hvalues⟩

/-- `Source.canonical_of_toJson` for fields that are filed into a table. -/
theorem canonical_of_fieldsToJson : ∀ (fields : List (String × Source))
    {filed : Table String Json} {values : List (String × Json)},
    (∀ e ∈ filed.entries, e.2.IsCanonical) → fieldsToJson fields filed.entries = .ok values →
      ∃ t : Table String Json, values = t.entries ∧ ∀ e ∈ t.entries, e.2.IsCanonical
  | [], filed, _, hfiled, h => by
      cases h
      exact ⟨filed, rfl, hfiled⟩
  | (k, s) :: rest, filed, _, hfiled, h => by
      rw [fieldsToJson, do_eq_ok_iff] at h
      obtain ⟨value, hvalue, h⟩ := h
      rw [← Table.entries_insert] at h
      refine canonical_of_fieldsToJson rest (fun e he => ?_) h
      rcases Table.mem_insertEntry he with rfl | he
      · exact Source.canonical_of_toJson s hvalue
      · exact hfiled e he

end

/-- The canonical form is reached in one step. -/
theorem Json.canonical_canonical (j : Json) : j.canonical.IsCanonical :=
  Source.canonical_of_toJson j.toSource j.toJson_toSource

end StarQpu
