/-!
Contract: finite maps from text to values, kept in ascending key order.

Owns:
- sorted association lists: look-up, insertion, removal;
- the map type whose entries are always ascending, so that two maps with the
  same look-ups are equal.

Does not own: any meaning of the keys or the values.
-/

namespace LivePage

namespace Entries

variable {α : Type u}

/-- Keys ascend strictly, so every key occurs once. -/
def Ascending (entries : List (String × α)) : Prop :=
  entries.Pairwise (fun earlier later => earlier.1 < later.1)

instance (entries : List (String × α)) : Decidable (Ascending entries) := by
  unfold Ascending
  infer_instance

def find? (key : String) : List (String × α) → Option α
  | [] => none
  | entry :: rest => if entry.1 = key then some entry.2 else find? key rest

/-- Writes a value at its place in the order; the last write of a key wins. -/
def put (key : String) (value : α) : List (String × α) → List (String × α)
  | [] => [(key, value)]
  | entry :: rest =>
      if key < entry.1 then (key, value) :: entry :: rest
      else if entry.1 = key then (key, value) :: rest
      else entry :: put key value rest

def remove (key : String) (entries : List (String × α)) : List (String × α) :=
  entries.filter (fun entry => entry.1 ≠ key)

/-- Writes the entries one after another. -/
def ofList (entries : List (String × α)) : List (String × α) :=
  entries.foldl (fun written entry => put entry.1 entry.2 written) []

theorem mem_put {key : String} {value : α} {entries : List (String × α)}
    {entry : String × α} (member : entry ∈ put key value entries) :
    entry = (key, value) ∨ entry ∈ entries := by
  induction entries with
  | nil => simpa [put] using member
  | cons head rest inductionHypothesis =>
      unfold put at member
      split at member
      · simpa using member
      · split at member
        · simp only [List.mem_cons] at member ⊢
          rcases member with isNew | isOld
          · exact Or.inl isNew
          · exact Or.inr (Or.inr isOld)
        · simp only [List.mem_cons] at member ⊢
          rcases member with isHead | inRest
          · exact Or.inr (Or.inl isHead)
          · rcases inductionHypothesis inRest with isNew | isOld
            · exact Or.inl isNew
            · exact Or.inr (Or.inr isOld)

private theorem lt_of_not_lt_of_ne {left right : String}
    (notLess : ¬right < left) (different : left ≠ right) : left < right := by
  by_cases less : left < right
  · exact less
  · exact absurd (String.le_antisymm (String.not_lt.mp notLess)
      (String.not_lt.mp less)) different

theorem Ascending.put {entries : List (String × α)} (ascending : Ascending entries)
    (key : String) (value : α) : Ascending (put key value entries) := by
  induction entries with
  | nil => simp [Entries.put, Ascending]
  | cons head rest inductionHypothesis =>
      have headBelow := (List.pairwise_cons.mp ascending).1
      have restAscending : Ascending rest := (List.pairwise_cons.mp ascending).2
      unfold Entries.put
      split
      · next keyBelow =>
          refine List.pairwise_cons.mpr ⟨?_, ascending⟩
          intro other member
          rcases List.mem_cons.mp member with isHead | inRest
          · subst isHead
            exact keyBelow
          · exact String.lt_trans keyBelow (headBelow other inRest)
      · next keyNotBelow =>
          split
          · next same =>
              subst same
              exact List.pairwise_cons.mpr ⟨headBelow, restAscending⟩
          · next different =>
              refine List.pairwise_cons.mpr ⟨?_, inductionHypothesis restAscending⟩
              intro other member
              rcases mem_put member with isNew | isOld
              · subst isNew
                exact lt_of_not_lt_of_ne keyNotBelow different
              · exact headBelow other isOld

theorem Ascending.remove {entries : List (String × α)} (ascending : Ascending entries)
    (key : String) : Ascending (remove key entries) :=
  List.Pairwise.filter _ ascending

theorem Ascending.ofList (entries : List (String × α)) : Ascending (ofList entries) := by
  suffices general : ∀ written : List (String × α), Ascending written →
      Ascending (entries.foldl (fun written entry => Entries.put entry.1 entry.2 written) written) from
    general [] List.Pairwise.nil
  induction entries with
  | nil => exact fun _ ascending => ascending
  | cons head rest inductionHypothesis =>
      intro written ascending
      exact inductionHypothesis _ (ascending.put head.1 head.2)

theorem find?_put (key other : String) (value : α) (entries : List (String × α)) :
    find? other (put key value entries) =
      if other = key then some value else find? other entries := by
  induction entries with
  | nil => by_cases same : key = other <;> simp [put, find?, same, eq_comm]
  | cons head rest inductionHypothesis =>
      unfold put
      split
      · by_cases same : key = other <;> simp [find?, same, eq_comm]
      · split
        · next sameKey =>
            by_cases same : key = other <;> simp [find?, sameKey, same, eq_comm]
        · next differentKey =>
            simp only [find?, inductionHypothesis]
            by_cases isHead : head.1 = other
            · subst isHead
              simp [differentKey]
            · simp [isHead]

theorem find?_remove (key other : String) (entries : List (String × α)) :
    find? other (remove key entries) = if other = key then none else find? other entries := by
  induction entries with
  | nil => simp [remove, find?]
  | cons head rest inductionHypothesis =>
      unfold remove at inductionHypothesis ⊢
      by_cases sameKey : head.1 = key
      · simp only [List.filter_cons, sameKey, ne_eq, not_true_eq_false, decide_false,
          Bool.false_eq_true, ↓reduceIte, inductionHypothesis, find?]
        by_cases same : other = key
        · simp [same]
        · simp [same, Ne.symm same]
      · simp only [List.filter_cons, ne_eq, sameKey, not_false_eq_true, decide_true,
          ↓reduceIte, find?, inductionHypothesis]
        by_cases isHead : head.1 = other
        · subst isHead
          simp [sameKey]
        · simp [isHead]

theorem mem_of_find? {key : String} {value : α} {entries : List (String × α)}
    (found : find? key entries = some value) : (key, value) ∈ entries := by
  induction entries with
  | nil => simp [find?] at found
  | cons head rest inductionHypothesis =>
      unfold find? at found
      split at found
      · next same =>
          cases found
          subst same
          exact List.mem_cons_self
      · exact List.mem_cons_of_mem _ (inductionHypothesis found)

theorem find?_of_mem {key : String} {value : α} {entries : List (String × α)}
    (ascending : Ascending entries) (member : (key, value) ∈ entries) :
    find? key entries = some value := by
  induction entries with
  | nil => simp at member
  | cons head rest inductionHypothesis =>
      have headBelow := (List.pairwise_cons.mp ascending).1
      rcases List.mem_cons.mp member with isHead | inRest
      · subst isHead
        simp [find?]
      · have below : head.1 < key := headBelow _ inRest
        have different : head.1 ≠ key := by
          intro same
          exact String.lt_irrefl key (same ▸ below)
        simp only [find?, different, ↓reduceIte]
        exact inductionHypothesis (List.pairwise_cons.mp ascending).2 inRest

theorem mem_iff_find? {key : String} {value : α} {entries : List (String × α)}
    (ascending : Ascending entries) :
    (key, value) ∈ entries ↔ find? key entries = some value :=
  ⟨find?_of_mem ascending, mem_of_find?⟩

/-- Ascending lists with the same look-ups are the same list. -/
theorem eq_of_find?_eq {left right : List (String × α)} (leftAscending : Ascending left)
    (rightAscending : Ascending right)
    (agree : ∀ key, find? key left = find? key right) : left = right := by
  have sameMembers : ∀ entry : String × α, entry ∈ left ↔ entry ∈ right := by
    intro entry
    obtain ⟨key, value⟩ := entry
    rw [mem_iff_find? leftAscending, mem_iff_find? rightAscending, agree]
  have nodup : ∀ {entries : List (String × α)}, Ascending entries → entries.Nodup := by
    intro entries ascending
    refine List.Pairwise.imp ?_ ascending
    intro earlier later less same
    exact String.lt_irrefl _ (same ▸ less)
  exact List.Perm.eq_of_pairwise
    (fun earlier later _ _ less greater => absurd greater (String.lt_asymm less))
    leftAscending rightAscending
    ((List.perm_ext_iff_of_nodup (nodup leftAscending) (nodup rightAscending)).mpr sameMembers)

theorem find?_of_mem_of_nodup {key : String} {value : α} {entries : List (String × α)}
    (distinct : (entries.map Prod.fst).Nodup) (member : (key, value) ∈ entries) :
    find? key entries = some value := by
  induction entries with
  | nil => simp at member
  | cons head rest inductionHypothesis =>
      obtain ⟨notInRest, restDistinct⟩ := List.nodup_cons.mp distinct
      rcases List.mem_cons.mp member with isHead | inRest
      · subst isHead
        simp [find?]
      · have different : head.1 ≠ key := by
          rintro rfl
          exact notInRest (List.mem_map.mpr ⟨_, inRest, rfl⟩)
        rw [find?, if_neg different]
        exact inductionHypothesis restDistinct inRest

theorem find?_eq_none_of_not_mem {key : String} {entries : List (String × α)}
    (absent : key ∉ entries.map Prod.fst) : find? key entries = none := by
  cases found : find? key entries with
  | none => rfl
  | some value => exact absurd (List.mem_map_of_mem (mem_of_find? found)) absent

/-- Entries of distinct keys are all found after writing them one after another. -/
theorem find?_ofList {entries : List (String × α)} (distinct : (entries.map Prod.fst).Nodup)
    (key : String) : find? key (ofList entries) = find? key entries := by
  suffices general : ∀ written : List (String × α),
      find? key (entries.foldl (fun written entry => put entry.1 entry.2 written) written) =
        (find? key entries).or (find? key written) by
    exact (general []).trans Option.or_none
  induction entries with
  | nil => exact fun _ => rfl
  | cons head rest inductionHypothesis =>
      intro written
      obtain ⟨notInRest, restDistinct⟩ := List.nodup_cons.mp distinct
      rw [List.foldl_cons, inductionHypothesis restDistinct, find?_put]
      by_cases isKey : key = head.1
      · subst isKey
        rw [find?_eq_none_of_not_mem notInRest]
        simp [find?]
      · simp [find?, isKey, Ne.symm isKey]

theorem Ascending.nodup {entries : List (String × α)} (ascending : Ascending entries) :
    (entries.map Prod.fst).Nodup := by
  refine List.pairwise_map.mpr (ascending.imp ?_)
  intro earlier later less same
  exact String.lt_irrefl _ (same ▸ less)

/-- Ascending entries written one after another are what they were. -/
theorem ofList_of_ascending {entries : List (String × α)} (ascending : Ascending entries) :
    ofList entries = entries :=
  eq_of_find?_eq (Ascending.ofList entries) ascending (find?_ofList ascending.nodup)

end Entries

/-- A finite map from text to values; `toList` ascends by key. -/
structure Dict (α : Type u) where
  toList : List (String × α)
  ascending : Entries.Ascending toList
deriving DecidableEq

namespace Dict

variable {α : Type u}

def empty : Dict α := ⟨[], List.Pairwise.nil⟩

instance : EmptyCollection (Dict α) := ⟨empty⟩

instance : Inhabited (Dict α) := ⟨empty⟩

instance [Repr α] : Repr (Dict α) := ⟨fun dict precedence => reprPrec dict.toList precedence⟩

def get? (dict : Dict α) (key : String) : Option α :=
  Entries.find? key dict.toList

def contains (dict : Dict α) (key : String) : Bool :=
  (dict.get? key).isSome

def insert (dict : Dict α) (key : String) (value : α) : Dict α :=
  ⟨Entries.put key value dict.toList, dict.ascending.put key value⟩

def erase (dict : Dict α) (key : String) : Dict α :=
  ⟨Entries.remove key dict.toList, dict.ascending.remove key⟩

/-- Later entries replace earlier ones of the same key. -/
def ofList (entries : List (String × α)) : Dict α :=
  ⟨Entries.ofList entries, Entries.Ascending.ofList entries⟩

def keys (dict : Dict α) : List String :=
  dict.toList.map Prod.fst

def size (dict : Dict α) : Nat :=
  dict.toList.length

def isEmpty (dict : Dict α) : Bool :=
  dict.toList.isEmpty

/-- Changes the value of a key that is present. -/
def modify (dict : Dict α) (key : String) (change : α → α) : Dict α :=
  match dict.get? key with
  | none => dict
  | some value => dict.insert key (change value)

@[simp] theorem get?_empty (key : String) : (empty : Dict α).get? key = none := rfl

theorem get?_insert (dict : Dict α) (key other : String) (value : α) :
    (dict.insert key value).get? other =
      if other = key then some value else dict.get? other :=
  Entries.find?_put key other value dict.toList

theorem get?_erase (dict : Dict α) (key other : String) :
    (dict.erase key).get? other = if other = key then none else dict.get? other :=
  Entries.find?_remove key other dict.toList

theorem mem_toList {dict : Dict α} {key : String} {value : α} :
    (key, value) ∈ dict.toList ↔ dict.get? key = some value :=
  Entries.mem_iff_find? dict.ascending

/-- Maps with the same look-ups are equal. -/
theorem ext_get? {left right : Dict α} (agree : ∀ key, left.get? key = right.get? key) :
    left = right := by
  cases left
  cases right
  congr
  exact Entries.eq_of_find?_eq ‹_› ‹_› agree

/-- Erasing a present key leaves fewer entries. -/
theorem size_erase_lt {dict : Dict α} {key : String} {value : α}
    (present : dict.get? key = some value) : (dict.erase key).size < dict.size := by
  have member := mem_toList.mpr present
  show (Entries.remove key dict.toList).length < dict.toList.length
  unfold Entries.remove
  apply List.length_filter_lt_length_iff_exists.mpr
  exact ⟨(key, value), member, by simp⟩

theorem get?_modify (dict : Dict α) (key other : String) (change : α → α) :
    (dict.modify key change).get? other =
      if other = key then (dict.get? key).map change else dict.get? other := by
  unfold modify
  split
  · next absent =>
      by_cases same : other = key
      · subst same
        simp [absent]
      · simp [same]
  · next value found =>
      rw [get?_insert, found]
      rfl

end Dict

end LivePage
