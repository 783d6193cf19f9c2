import Mathlib

namespace KalpakDb.FiniteMap

/-!
# Aggregates over finite ordered maps

Lookup, insertion and extensionality of `Std.ExtTreeMap` come from the
standard library.  This module adds what accounting arguments need on top:
sums over all bindings, the size of a map whose keys lie in another one, and
writing or removing many keys at once.
-/

open Std (ExtTreeMap ExtTreeSet)

variable {α β γ : Type} [Ord α] [Std.TransOrd α] [Std.LawfulEqOrd α]

/-- The bindings of a map outside one key. -/
def others [DecidableEq α] (map : ExtTreeMap α β) (key : α) : List (α × β) :=
  map.toList.filter fun entry => entry.1 ≠ key

/-- Add up a quantity over all bindings of a map. -/
def total (measure : α → β → Nat) (map : ExtTreeMap α β) : Nat :=
  (map.toList.map fun entry => measure entry.1 entry.2).sum

/-- The values of a map in key order. -/
def values (map : ExtTreeMap α β) : List β :=
  map.toList.map Prod.snd

/-- Write one value under every listed key. -/
def insertAll
    (map : ExtTreeMap α β)
    (keys : List α)
    (value : β) : ExtTreeMap α β :=
  keys.foldl (fun current key => current.insert key value) map

/-- Remove every listed key. -/
def eraseAll (map : ExtTreeMap α β) (keys : List α) : ExtTreeMap α β :=
  keys.foldl (fun current key => current.erase key) map

omit [Std.LawfulEqOrd α] in
theorem nodup_toList (map : ExtTreeMap α β) : map.toList.Nodup := by
  have distinct := map.nodup_keys
  rw [← ExtTreeMap.map_fst_toList_eq_keys] at distinct
  exact List.Nodup.of_map Prod.fst distinct

theorem mem_toList {map : ExtTreeMap α β} {key : α} {value : β} :
    (key, value) ∈ map.toList ↔ map[key]? = some value :=
  ExtTreeMap.mem_toList_iff_getElem?_eq_some

theorem mem_values {map : ExtTreeMap α β} {value : β} :
    value ∈ values map ↔ ∃ key : α, map[key]? = some value := by
  simp [values]

/-- A map is rebuilt from its list of bindings. -/
theorem ofList_toList [DecidableEq α] (map : ExtTreeMap α β) :
    ExtTreeMap.ofList map.toList = map := by
  apply ExtTreeMap.ext_getElem?
  intro key
  cases found : map[key]? with
  | none =>
      apply ExtTreeMap.getElem?_ofList_of_contains_eq_false
      rw [ExtTreeMap.map_fst_toList_eq_keys]
      simpa using found
  | some value =>
      exact ExtTreeMap.getElem?_ofList_of_mem Std.ReflCmp.compare_self
        map.distinct_keys_toList (mem_toList.mpr found)

omit [Std.LawfulEqOrd α] in
theorem nodup_toList_set (set : ExtTreeSet α) : set.toList.Nodup :=
  set.distinct_toList.imp fun different same => by
    subst same
    simp at different

/-- A set built from distinct elements has as many as were listed. -/
theorem length_toList_insertMany
    [DecidableEq α]
    {keys : List α}
    (distinct : keys.Nodup) :
    ((∅ : ExtTreeSet α).insertMany keys).toList.length = keys.length := by
  apply List.Perm.length_eq
  refine (List.perm_ext_iff_of_nodup (nodup_toList_set _) distinct).mpr ?_
  intro key
  simp [ExtTreeSet.mem_toList]

/-- A set is rebuilt from its list of elements. -/
theorem ofList_toList_set [DecidableEq α] (set : ExtTreeSet α) :
    ExtTreeSet.ofList set.toList = set := by
  apply ExtTreeSet.ext_mem
  intro key
  rw [ExtTreeSet.mem_ofList]
  simp

/-- A binding present in the map can be split off from the others. -/
theorem toList_perm_of_getElem?
    [DecidableEq α]
    {map : ExtTreeMap α β}
    {key : α}
    {value : β}
    (found : map[key]? = some value) :
    map.toList.Perm ((key, value) :: others map key) := by
  apply (List.perm_ext_iff_of_nodup (nodup_toList map) ?_).mpr
  · rintro ⟨other, content⟩
    by_cases sameKey : other = key
    · subst other
      simp [others, found, eq_comm]
    · simp [others, sameKey]
  · refine List.nodup_cons.mpr
      ⟨by simp [others], (nodup_toList map).filter _⟩

/-- Without a binding for the key, the others are the whole map. -/
theorem others_of_getElem?_none
    [DecidableEq α]
    {map : ExtTreeMap α β}
    {key : α}
    (absent : map[key]? = none) :
    others map key = map.toList := by
  apply List.filter_eq_self.mpr
  rintro ⟨other, content⟩ member
  have found := mem_toList.mp member
  have different : other ≠ key := by
    intro same
    subst other
    simp [absent] at found
  simpa using different

/-- Insertion replaces exactly the binding of its own key. -/
theorem toList_insert_perm
    [DecidableEq α]
    (map : ExtTreeMap α β)
    (key : α)
    (value : β) :
    (map.insert key value).toList.Perm ((key, value) :: others map key) := by
  have found : (map.insert key value)[key]? = some value := by
    simp
  refine (toList_perm_of_getElem? found).trans (List.Perm.cons _ ?_)
  apply (List.perm_ext_iff_of_nodup
    ((nodup_toList _).filter _) ((nodup_toList _).filter _)).mpr
  rintro ⟨other, content⟩
  by_cases sameKey : other = key
  · simp [sameKey]
  · simp [ExtTreeMap.getElem?_insert, sameKey, Ne.symm sameKey]

/--
Balance of a sum across an insertion: the replaced contribution leaves and
the new contribution enters.
-/
theorem total_insert
    [DecidableEq α]
    (measure : α → β → Nat)
    (map : ExtTreeMap α β)
    (key : α)
    (value : β) :
    total measure (map.insert key value) +
        (map[key]?.elim 0 (measure key)) =
      total measure map + measure key value := by
  have inserted :
      total measure (map.insert key value) =
        measure key value +
          ((others map key).map fun entry =>
            measure entry.1 entry.2).sum := by
    unfold total
    rw [((toList_insert_perm map key value).map _).sum_eq]
    simp
  cases found : map[key]? with
  | none =>
      have same :
          total measure map =
            ((others map key).map fun entry =>
              measure entry.1 entry.2).sum := by
        rw [others_of_getElem?_none found]
        rfl
      simp only [Option.elim_none]
      omega
  | some old =>
      have split :
          total measure map =
            measure key old +
              ((others map key).map fun entry =>
                measure entry.1 entry.2).sum := by
        unfold total
        rw [((toList_perm_of_getElem? found).map _).sum_eq]
        simp
      simp only [Option.elim_some]
      omega

/-- What a removed binding contributed leaves the sum. -/
theorem total_erase
    [DecidableEq α]
    (measure : α → β → Nat)
    {map : ExtTreeMap α β}
    {key : α}
    {value : β}
    (found : map[key]? = some value) :
    total measure (map.erase key) + measure key value =
      total measure map := by
  have restored : (map.erase key).insert key value = map := by
    apply ExtTreeMap.ext_getElem?
    intro other
    rw [ExtTreeMap.getElem?_insert, ExtTreeMap.getElem?_erase]
    split
    · rename_i same
      rw [← Std.LawfulEqOrd.eq_of_compare same, found]
    · rfl
  have balance := total_insert measure (map.erase key) key value
  rw [restored, ExtTreeMap.getElem?_erase,
    if_pos Std.ReflCmp.compare_self] at balance
  simpa using balance.symm

omit [Std.LawfulEqOrd α] in
@[simp] theorem total_empty (measure : α → β → Nat) :
    total measure (∅ : ExtTreeMap α β) = 0 := by
  have empty : (∅ : ExtTreeMap α β).toList = [] :=
    ExtTreeMap.toList_eq_nil_iff.mpr rfl
  simp [total, empty]

/-- Each binding contributes at most the whole sum. -/
theorem measure_le_total
    [DecidableEq α]
    (measure : α → β → Nat)
    {map : ExtTreeMap α β}
    {key : α}
    {value : β}
    (found : map[key]? = some value) :
    measure key value ≤ total measure map := by
  unfold total
  rw [((toList_perm_of_getElem? found).map _).sum_eq]
  simp

/-- A sum is positive exactly when some binding contributes. -/
theorem total_pos_iff
    {measure : α → β → Nat}
    {map : ExtTreeMap α β} :
    0 < total measure map ↔
      ∃ key value, map[key]? = some value ∧ 0 < measure key value := by
  unfold total
  rw [Nat.pos_iff_ne_zero, Ne, List.sum_eq_zero_iff]
  constructor
  · intro nonzero
    by_contra absent
    apply nonzero
    intro amount member
    obtain ⟨⟨key, value⟩, entryMember, rfl⟩ := List.mem_map.mp member
    by_contra contributes
    exact absent ⟨key, value, mem_toList.mp entryMember,
      Nat.pos_of_ne_zero contributes⟩
  · rintro ⟨key, value, found, positive⟩ allZero
    have zero := allZero (measure key value)
      (List.mem_map.mpr ⟨(key, value), mem_toList.mpr found, rfl⟩)
    omega

/-- A map whose keys all occur in another one is counted inside it. -/
theorem size_eq_length_filter_of_subset
    {inner : ExtTreeMap α β}
    {outer : ExtTreeMap α γ}
    (included : ∀ key, key ∈ inner → key ∈ outer) :
    inner.size = (outer.keys.filter fun key => inner.contains key).length := by
  rw [← ExtTreeMap.length_keys]
  apply List.Perm.length_eq
  apply (List.perm_ext_iff_of_nodup inner.nodup_keys
    (outer.nodup_keys.filter _)).mpr
  intro key
  simp only [ExtTreeMap.mem_keys, List.mem_filter]
  constructor
  · intro member
    exact ⟨included key member, ExtTreeMap.contains_iff_mem.mpr member⟩
  · rintro ⟨-, contained⟩
    exact ExtTreeMap.contains_iff_mem.mp contained

/-- Modifying a present binding overwrites it. -/
theorem modify_eq_insert
    {map : ExtTreeMap α β}
    {key : α}
    {value : β}
    (found : map[key]? = some value)
    (change : β → β) :
    map.modify key change = map.insert key (change value) := by
  apply ExtTreeMap.ext_getElem?
  intro other
  by_cases same : compare key other = .eq
  · have same := Std.LawfulEqOrd.eq_of_compare same
    subst other
    simp [found]
  · simp [ExtTreeMap.getElem?_modify, ExtTreeMap.getElem?_insert, same]

/-- After a bulk write the listed keys carry the value, the rest is kept. -/
theorem getElem?_insertAll
    [DecidableEq α]
    (map : ExtTreeMap α β)
    (keys : List α)
    (value : β)
    (key : α) :
    (insertAll map keys value)[key]? =
      if key ∈ keys then some value else map[key]? := by
  induction keys generalizing map with
  | nil =>
      simp [insertAll]
  | cons first rest inductionHypothesis =>
      have tail := inductionHypothesis (map.insert first value)
      simp only [insertAll, List.foldl_cons] at tail ⊢
      rw [tail]
      by_cases inRest : key ∈ rest
      · simp [inRest]
      · by_cases same : first = key
        · simp [same]
        · simp [inRest, ExtTreeMap.getElem?_insert, same, Ne.symm same]

/-- A bulk write under distinct keys grows the map by the new ones. -/
theorem size_insertAll
    [DecidableEq α]
    (map : ExtTreeMap α β)
    {keys : List α}
    (distinct : keys.Nodup)
    (value : β) :
    (insertAll map keys value).size =
      map.size + (keys.filter fun key => !map.contains key).length := by
  induction keys generalizing map with
  | nil =>
      simp [insertAll]
  | cons first rest inductionHypothesis =>
      obtain ⟨firstFresh, restDistinct⟩ := List.nodup_cons.mp distinct
      have tail := inductionHypothesis (map.insert first value) restDistinct
      have sameFilter :
          (rest.filter fun key => !(map.insert first value).contains key) =
            rest.filter fun key => !map.contains key := by
        apply List.filter_congr
        intro key member
        have different : first ≠ key := by
          rintro rfl
          exact firstFresh member
        simp [ExtTreeMap.contains_insert, different]
      simp only [insertAll, List.foldl_cons] at tail ⊢
      rw [tail, sameFilter, ExtTreeMap.size_insert]
      by_cases present : map.contains first
      · simp [present]
      · simp [present]
        omega

/-- Writing distinct entries: they are found, and the others are kept. -/
theorem getElem?_insertMany_eq_some_iff
    [DecidableEq α]
    (map : ExtTreeMap α β)
    {entries : List (α × β)}
    (distinct : (entries.map Prod.fst).Nodup)
    {key : α}
    {value : β} :
    (map.insertMany entries)[key]? = some value ↔
      (key, value) ∈ entries ∨
        (key ∉ entries.map Prod.fst ∧ map[key]? = some value) := by
  have separate :
      entries.Pairwise fun first second =>
        ¬ compare first.1 second.1 = .eq :=
    (List.pairwise_map.mp distinct).imp fun different same =>
      different (Std.LawfulEqOrd.eq_of_compare same)
  by_cases written : key ∈ entries.map Prod.fst
  · obtain ⟨⟨listed, found⟩, member, same⟩ := List.mem_map.mp written
    simp only at same
    subst same
    rw [ExtTreeMap.getElem?_insertMany_list_of_mem Std.ReflCmp.compare_self
      separate member]
    constructor
    · rintro ⟨⟩
      exact Or.inl member
    · rintro (other | ⟨unwritten, -⟩)
      · have same := List.inj_on_of_nodup_map distinct member other rfl
        rw [(Prod.mk.inj same).2]
      · exact absurd written unwritten
  · rw [ExtTreeMap.getElem?_insertMany_list_of_contains_eq_false
      (by simpa using written)]
    constructor
    · intro kept
      exact Or.inr ⟨written, kept⟩
    · rintro (listed | ⟨-, kept⟩)
      · exact absurd (List.mem_map_of_mem listed) written
      · exact kept

/-- The keys of a map on an initial range are that range. -/
theorem keys_eq_range
    {map : ExtTreeMap Nat β}
    {count : Nat}
    (bounded : ∀ key, key ∈ map ↔ key < count) :
    map.keys = List.range count := by
  have increasing : map.keys.Pairwise (· < ·) :=
    map.ordered_keys.imp fun ordered => Nat.compare_eq_lt.mp ordered
  refine List.Perm.eq_of_pairwise ?_ increasing List.pairwise_lt_range ?_
  · intro first second _ _ forward backward
    omega
  · refine (List.perm_ext_iff_of_nodup map.nodup_keys
      List.nodup_range).mpr ?_
    intro key
    rw [ExtTreeMap.mem_keys, List.mem_range, bounded]

/-- Of several insertions for one key the last one counts. -/
theorem getElem?_insertMany_last
    [DecidableEq α]
    (map : ExtTreeMap α β)
    (entries : List (α × β))
    (key : α) :
    (map.insertMany entries)[key]? =
      ((entries.reverse.find? fun entry => entry.1 = key).map
        Prod.snd).or map[key]? := by
  induction entries generalizing map with
  | nil =>
      simp
  | cons entry rest inductionHypothesis =>
      rw [ExtTreeMap.insertMany_cons, inductionHypothesis,
        List.reverse_cons, List.find?_append, ExtTreeMap.getElem?_insert]
      cases rest.reverse.find? fun entry => entry.1 = key with
      | some later =>
          rfl
      | none =>
          by_cases same : entry.1 = key
          · simp [same]
          · have different : compare entry.1 key ≠ .eq :=
              fun equal => same (Std.LawfulEqOrd.eq_of_compare equal)
            simp [same]

/-- A bulk removal forgets the listed keys and keeps the others. -/
theorem getElem?_eraseAll
    [DecidableEq α]
    (map : ExtTreeMap α β)
    (keys : List α)
    (key : α) :
    (eraseAll map keys)[key]? = if key ∈ keys then none else map[key]? := by
  induction keys generalizing map with
  | nil =>
      simp [eraseAll]
  | cons first rest inductionHypothesis =>
      have tail := inductionHypothesis (map.erase first)
      simp only [eraseAll, List.foldl_cons] at tail ⊢
      rw [tail, ExtTreeMap.getElem?_erase]
      by_cases later : key ∈ rest
      · simp [later]
      · by_cases same : first = key
        · simp [same]
        · have different : compare first key ≠ .eq :=
            fun equal => same (Std.LawfulEqOrd.eq_of_compare equal)
          simp [later, different, Ne.symm same]

end KalpakDb.FiniteMap
