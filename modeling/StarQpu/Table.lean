/-!
# StarQpu.Table

**Finite maps listed in ascending key order.** A `Table` is its list of entries together with the
fact that the keys ascend strictly, so two tables with the same entries are equal and the order in
which a table was filled leaves no trace. Every map that is written out (arguments, gates,
implementations, overrides, qubit mappings) is a `Table`; its written order is the order of
`entries`.
-/

namespace StarQpu

/-- A finite map from `κ` to `α`, held as its entries in strictly ascending key order. -/
structure Table (κ α : Type) [Ord κ] where
  /-- The entries, smallest key first. -/
  entries : List (κ × α)
  /-- Keys ascend strictly, so no key occurs twice. -/
  ordered : entries.Pairwise fun a b => compare a.1 b.1 = .lt
  deriving DecidableEq

namespace Table

variable {κ α β : Type} [Ord κ]

theorem ext {s t : Table κ α} (h : s.entries = t.entries) : s = t := by
  cases s; cases t; cases h; rfl

/-- The map without entries. -/
def empty : Table κ α := ⟨[], .nil⟩

instance : Inhabited (Table κ α) := ⟨empty⟩

/-- The keys in ascending order. -/
def keys (t : Table κ α) : List κ := t.entries.map (·.1)

/-- The values in the order of their keys. -/
def values (t : Table κ α) : List α := t.entries.map (·.2)

/-- The number of entries. -/
def size (t : Table κ α) : Nat := t.entries.length

/-- The value filed under `k`. -/
def get? [BEq κ] (t : Table κ α) (k : κ) : Option α := t.entries.lookup k

/-- Is something filed under `k`? -/
def contains [BEq κ] (t : Table κ α) (k : κ) : Bool := (t.get? k).isSome

/-- The value filed under `k`, or `fallback`. -/
def getD [BEq κ] (t : Table κ α) (k : κ) (fallback : α) : α := (t.get? k).getD fallback

/-- Same keys, each value replaced by its image under `f`. -/
def mapValues (f : α → β) (t : Table κ α) : Table κ β where
  entries := t.entries.map fun (k, v) => (k, f v)
  ordered := List.pairwise_map.2 (t.ordered.imp id)

/-- The entries that `p` accepts. -/
def filter (p : κ → α → Bool) (t : Table κ α) : Table κ α where
  entries := t.entries.filter fun (k, v) => p k v
  ordered := t.ordered.sublist List.filter_sublist

/-- The entries for which `f` gives a value, with that value. -/
def filterMap (f : κ → α → Option β) (t : Table κ α) : Table κ β where
  entries := t.entries.filterMap fun (k, v) => (f k v).map (k, ·)
  ordered := by
    refine List.pairwise_filterMap.2 (t.ordered.imp ?_)
    intro a b hab c hc d hd
    obtain ⟨_, _, rfl⟩ := Option.map_eq_some_iff.1 hc
    obtain ⟨_, _, rfl⟩ := Option.map_eq_some_iff.1 hd
    exact hab

/-- Files `v` under `k` in an ascending list of entries, in place of what was there. -/
def insertEntry (k : κ) (v : α) : List (κ × α) → List (κ × α)
  | [] => [(k, v)]
  | (k', v') :: rest =>
    match compare k k' with
    | .lt => (k, v) :: (k', v') :: rest
    | .eq => (k, v) :: rest
    | .gt => (k', v') :: insertEntry k v rest

theorem mem_insertEntry {k : κ} {v : α} {l : List (κ × α)} {e : κ × α}
    (h : e ∈ insertEntry k v l) : e = (k, v) ∨ e ∈ l := by
  induction l with
  | nil => simpa [insertEntry] using h
  | cons head rest ih =>
    simp only [insertEntry] at h
    split at h <;> simp only [List.mem_cons] at h ⊢ <;> grind

theorem insertEntry_ordered [Std.TransOrd κ] {k : κ} {v : α} {l : List (κ × α)}
    (h : l.Pairwise fun a b => compare a.1 b.1 = .lt) :
    (insertEntry k v l).Pairwise fun a b => compare a.1 b.1 = .lt := by
  induction l with
  | nil => simp [insertEntry]
  | cons head rest ih =>
    obtain ⟨first, later⟩ := List.pairwise_cons.1 h
    simp only [insertEntry]
    split
    next hlt =>
      refine List.pairwise_cons.2 ⟨fun e he => ?_, h⟩
      rcases List.mem_cons.1 he with rfl | he
      · exact hlt
      · exact Std.TransCmp.lt_trans hlt (first e he)
    next heq =>
      exact List.pairwise_cons.2
        ⟨fun e he => Std.TransCmp.lt_of_eq_of_lt heq (first e he), later⟩
    next hgt =>
      refine List.pairwise_cons.2 ⟨fun e he => ?_, ih later⟩
      rcases mem_insertEntry he with rfl | he
      · exact Std.OrientedCmp.lt_of_gt hgt
      · exact first e he

/-- Files `v` under `k`, in place of what was there. -/
def insert [Std.TransOrd κ] (t : Table κ α) (k : κ) (v : α) : Table κ α :=
  ⟨insertEntry k v t.entries, insertEntry_ordered t.ordered⟩

/-- Files `v` under `k` unless something is there already. -/
def insertNew [BEq κ] [Std.TransOrd κ] (t : Table κ α) (k : κ) (v : α) : Table κ α :=
  if t.contains k then t else t.insert k v

/-- Files the entries one after the other; of two entries with one key the later stays. -/
def ofList [Std.TransOrd κ] (l : List (κ × α)) : Table κ α :=
  l.foldl (fun t (k, v) => t.insert k v) empty

@[simp] theorem entries_empty : (empty : Table κ α).entries = [] := rfl

@[simp] theorem entries_insert [Std.TransOrd κ] (t : Table κ α) (k : κ) (v : α) :
    (t.insert k v).entries = insertEntry k v t.entries := rfl

end Table

end StarQpu
