import KalpakDb.FiniteMap

namespace KalpakDb.OrderedPages

/-!
# Pages of ordered maps

A large map is read by the page: the first few of its wanted entries.  What a
page lacks comes after everything on it.  Two pages of different maps can be
merged, and the first few entries of the merge are the first few entries of
both maps together.
-/

open Std (ExtTreeMap)

variable {α β : Type} [Ord α]

/-! ## Ascending entries -/

def Precedes (first second : α) : Prop := compare first second = .lt

instance (first second : α) : Decidable (Precedes first second) :=
  inferInstanceAs (Decidable (compare first second = .lt))

section Ordered

variable [Std.TransOrd α]

theorem Precedes.trans
    {first second third : α}
    (before : Precedes first second)
    (after : Precedes second third) :
    Precedes first third :=
  Std.TransCmp.lt_trans before after

theorem not_precedes_self (key : α) : ¬ Precedes key key := by
  simp [Precedes, Std.ReflCmp.compare_self]

theorem precedes_cases [Std.LawfulEqOrd α] (first second : α) :
    Precedes first second ∨ first = second ∨ Precedes second first := by
  unfold Precedes
  cases order : compare first second with
  | lt =>
      exact Or.inl rfl
  | eq =>
      exact Or.inr (Or.inl (Std.LawfulEqOrd.eq_of_compare order))
  | gt =>
      exact Or.inr (Or.inr (Std.OrientedCmp.lt_of_gt order))

/-- Entries in the order of their keys. -/
def Ascending (entries : List (α × β)) : Prop :=
  entries.Pairwise fun first second => Precedes first.1 second.1

theorem ascending_toList (map : ExtTreeMap α β) : Ascending map.toList :=
  map.ordered_keys_toList

variable {entries : List (α × β)}

theorem Ascending.nodup_keys (ascending : Ascending entries) :
    (entries.map Prod.fst).Nodup := by
  refine List.pairwise_map.mpr (ascending.imp ?_)
  intro first second before same
  rw [same] at before
  exact not_precedes_self _ before

omit [Std.TransOrd α] in
/-- An entry that is not one of the first few comes after all of these. -/
theorem Ascending.take_or_behind
    (ascending : Ascending entries)
    (limit : Nat)
    {entry : α × β}
    (member : entry ∈ entries) :
    entry ∈ entries.take limit ∨
      (entries.take limit).length = limit ∧
        ∀ other ∈ entries.take limit, Precedes other.1 entry.1 := by
  rw [← List.take_append_drop limit entries] at member ascending
  rcases List.mem_append.mp member with taken | dropped
  · exact Or.inl taken
  · refine Or.inr ⟨?_, ?_⟩
    · have long := List.length_pos_of_mem dropped
      rw [List.length_drop] at long
      rw [List.length_take]
      omega
    · intro other isTaken
      exact (List.pairwise_append.mp ascending).2.2 other isTaken entry
        dropped

/-- Only few keys come before one of the first few. -/
theorem Ascending.length_lt_of_mem_take
    (ascending : Ascending entries)
    {limit : Nat}
    {entry : α × β}
    (member : entry ∈ entries.take limit)
    {keys : List α}
    (distinct : keys.Nodup)
    (earlier :
      ∀ key ∈ keys,
        key ∈ entries.map Prod.fst ∧ Precedes key entry.1) :
    keys.length < limit := by
  obtain ⟨front, back, isTaken⟩ := List.append_of_mem member
  have shape : entries = front ++ entry :: (back ++ entries.drop limit) := by
    rw [← List.cons_append, ← List.append_assoc, ← isTaken,
      List.take_append_drop]
  have inFront : ∀ key ∈ keys, key ∈ front.map Prod.fst := by
    intro key isKey
    obtain ⟨listed, before⟩ := earlier key isKey
    rw [shape, List.map_append, List.mem_append] at listed
    rcases listed with early | late
    · exact early
    · rw [shape] at ascending
      have sorted := (List.pairwise_append.mp ascending).2.1
      rw [List.map_cons, List.mem_cons] at late
      rcases late with rfl | late
      · exact absurd before (not_precedes_self _)
      · obtain ⟨other, isOther, rfl⟩ := List.mem_map.mp late
        have after := (List.pairwise_cons.mp sorted).1 other isOther
        exact absurd (before.trans after) (not_precedes_self _)
  have few := (List.subperm_of_subset distinct inFront).length_le
  have bound : (entries.take limit).length ≤ limit := by
    rw [List.length_take]
    omega
  rw [isTaken, List.length_append, List.length_cons] at bound
  rw [List.length_map] at few
  omega

end Ordered

/-! ## Pages -/

section Pages

variable [Std.TransOrd α] [Std.LawfulEqOrd α] {key : α}

/-- The first few wanted entries of a map. -/
def page
    (limit : Nat)
    (wanted : α × β → Bool)
    (map : ExtTreeMap α β) : List (α × β) :=
  (map.toList.filter wanted).take limit

variable {limit : Nat} {wanted : α × β → Bool} {map : ExtTreeMap α β}

omit [Std.LawfulEqOrd α] in
theorem ascending_page : Ascending (page limit wanted map) :=
  ((ascending_toList map).sublist List.filter_sublist).sublist
    (List.take_sublist _ _)

theorem mem_page
    {value : β}
    (member : (key, value) ∈ page limit wanted map) :
    map[key]? = some value ∧ wanted (key, value) = true := by
  obtain ⟨listed, isWanted⟩ :=
    List.mem_filter.mp (List.mem_of_mem_take member)
  exact ⟨FiniteMap.mem_toList.mp listed, isWanted⟩

/-- What a page lacks comes after everything on it. -/
theorem mem_page_or_behind
    {value : β}
    (found : map[key]? = some value)
    (isWanted : wanted (key, value) = true) :
    (key, value) ∈ page limit wanted map ∨
      (page limit wanted map).length = limit ∧
        ∀ other ∈ page limit wanted map, Precedes other.1 key :=
  Ascending.take_or_behind
    ((ascending_toList map).sublist List.filter_sublist) limit
    (List.mem_filter.mpr ⟨FiniteMap.mem_toList.mpr found, isWanted⟩)

/-- An ascending list is read back from the map of its entries. -/
theorem mem_ofList
    {entries : List (α × β)}
    (ascending : Ascending entries)
    {value : β} :
    (ExtTreeMap.ofList entries)[key]? = some value ↔
      (key, value) ∈ entries := by
  classical
  have written :
      ((∅ : ExtTreeMap α β).insertMany entries)[key]? = some value ↔ _ :=
    FiniteMap.getElem?_insertMany_eq_some_iff ∅ ascending.nodup_keys
  rw [← ExtTreeMap.ofList_eq_insertMany_empty] at written
  simpa using written

end Pages

/-! ## Merging -/

section Merging

variable [Std.TransOrd α] [Std.LawfulEqOrd α] {entries : List (α × Nat)}
  {key : α}

/-- Enter numbers into a map that keeps the larger one. -/
def raiseAll
    (map : ExtTreeMap α Nat)
    (entries : List (α × Nat)) : ExtTreeMap α Nat :=
  entries.foldl
    (fun merged entry =>
      merged.insert entry.1 (max (merged[entry.1]?.getD entry.2) entry.2))
    map

theorem getElem?_raiseAll_of_notMem
    {map : ExtTreeMap α Nat}
    (absent : key ∉ entries.map Prod.fst) :
    (raiseAll map entries)[key]? = map[key]? := by
  induction entries generalizing map with
  | nil =>
      rfl
  | cons entry rest inductionHypothesis =>
      rw [List.map_cons, List.mem_cons, not_or] at absent
      have different : compare entry.1 key ≠ .eq :=
        fun equal => absent.1 (Std.LawfulEqOrd.eq_of_compare equal).symm
      rw [raiseAll, List.foldl_cons]
      refine (inductionHypothesis absent.2).trans ?_
      rw [ExtTreeMap.getElem?_insert, if_neg different]

theorem getElem?_raiseAll_of_mem
    {map : ExtTreeMap α Nat}
    (ascending : Ascending entries)
    {value : Nat}
    (member : (key, value) ∈ entries) :
    (raiseAll map entries)[key]? =
      some (max (map[key]?.getD value) value) := by
  induction entries generalizing map with
  | nil =>
      cases member
  | cons entry rest inductionHypothesis =>
      obtain ⟨first, sorted⟩ := List.pairwise_cons.mp ascending
      rw [raiseAll, List.foldl_cons]
      rcases List.mem_cons.mp member with rfl | later
      · have absent : key ∉ rest.map Prod.fst :=
          (List.nodup_cons.mp ascending.nodup_keys).1
        refine (getElem?_raiseAll_of_notMem absent).trans ?_
        rw [ExtTreeMap.getElem?_insert, if_pos Std.ReflCmp.compare_self]
      · have different : compare entry.1 key ≠ .eq := by
          rw [first (key, value) later]
          decide
        refine (inductionHypothesis sorted later).trans ?_
        rw [ExtTreeMap.getElem?_insert, if_neg different]

/-- Numbers of two maps under one key. -/
def larger (first second : Option Nat) : Option Nat :=
  first.merge max second

/-- The merge of two pages has under each key what the pages have. -/
theorem getElem?_raiseAll
    {first second : List (α × Nat)}
    (ascending : Ascending second)
    (key : α) :
    (raiseAll (ExtTreeMap.ofList first) second)[key]? =
      larger (ExtTreeMap.ofList first)[key]?
        (ExtTreeMap.ofList second)[key]? := by
  cases found : (ExtTreeMap.ofList second)[key]? with
  | none =>
      have absent : key ∉ second.map Prod.fst := by
        intro listed
        obtain ⟨entry, member, rfl⟩ := List.mem_map.mp listed
        rw [(mem_ofList ascending).mpr member] at found
        cases found
      rw [getElem?_raiseAll_of_notMem absent]
      cases (ExtTreeMap.ofList first)[key]? with
      | none => rfl
      | some value => rfl
  | some value =>
      rw [getElem?_raiseAll_of_mem ascending
        ((mem_ofList ascending).mp found)]
      cases (ExtTreeMap.ofList first)[key]? with
      | none => exact congrArg some (Nat.max_self value)
      | some other => rfl

/-- What a map has under a key, if it is wanted. -/
def wantedValue
    (wanted : α × β → Bool)
    (map : ExtTreeMap α β)
    (key : α) : Option β :=
  map[key]?.filter fun value => wanted (key, value)

omit [Std.LawfulEqOrd α] in
theorem wantedValue_eq_some
    {wanted : α × β → Bool}
    {map : ExtTreeMap α β}
    {value : β} :
    wantedValue wanted map key = some value ↔
      map[key]? = some value ∧ wanted (key, value) = true :=
  Option.filter_eq_some_iff

/-- A page is complete up to one of the first few entries. -/
theorem getElem?_page
    {limit : Nat}
    {wanted : α × β → Bool}
    {map : ExtTreeMap α β}
    (ascending : Ascending entries)
    (covered :
      ∀ entry ∈ page limit wanted map, entry.1 ∈ entries.map Prod.fst)
    {number : Nat}
    (member : (key, number) ∈ entries.take limit) :
    (ExtTreeMap.ofList (page limit wanted map))[key]? =
      wantedValue wanted map key := by
  cases found : wantedValue wanted map key with
  | none =>
      cases onPage : (ExtTreeMap.ofList (page limit wanted map))[key]? with
      | none =>
          rfl
      | some value =>
          have listed := mem_page ((mem_ofList ascending_page).mp onPage)
          rw [wantedValue_eq_some.mpr listed] at found
          cases found
  | some value =>
      obtain ⟨present, isWanted⟩ := wantedValue_eq_some.mp found
      refine (mem_ofList ascending_page).mpr ?_
      rcases mem_page_or_behind present isWanted with listed | ⟨full, behind⟩
      · exact listed
      · have few := ascending.length_lt_of_mem_take member
          ascending_page.nodup_keys (by
            intro other listed
            obtain ⟨entry, onPage, rfl⟩ := List.mem_map.mp listed
            exact ⟨covered entry onPage, behind entry onPage⟩)
        rw [List.length_map, full] at few
        exact absurd few (Nat.lt_irrefl _)

/-- The first few entries of the merge of two pages. -/
def mergedPage
    (limit : Nat)
    (firstWanted secondWanted : α × Nat → Bool)
    (first second : ExtTreeMap α Nat) : List (α × Nat) :=
  (raiseAll (ExtTreeMap.ofList (page limit firstWanted first))
    (page limit secondWanted second)).toList.take limit

section Merged

variable {limit : Nat} {firstWanted secondWanted : α × Nat → Bool}
  {first second : ExtTreeMap α Nat} {value : Nat}

omit [Std.LawfulEqOrd α] in
theorem ascending_mergedPage :
    Ascending (mergedPage limit firstWanted secondWanted first second) :=
  (ascending_toList _).sublist (List.take_sublist _ _)

/-- Both pages are part of their merge. -/
theorem covered_raiseAll
    (listed :
      (∃ value, (key, value) ∈ page limit firstWanted first) ∨
        ∃ value, (key, value) ∈ page limit secondWanted second) :
    key ∈ (raiseAll (ExtTreeMap.ofList (page limit firstWanted first))
      (page limit secondWanted second)).toList.map Prod.fst := by
  rw [ExtTreeMap.map_fst_toList_eq_keys, ExtTreeMap.mem_keys,
    ExtTreeMap.mem_iff_isSome_getElem?, getElem?_raiseAll ascending_page]
  rcases listed with ⟨value, onPage⟩ | ⟨value, onPage⟩
  · rw [(mem_ofList ascending_page).mpr onPage]
    cases (ExtTreeMap.ofList (page limit secondWanted second))[key]? with
    | none => rfl
    | some other => rfl
  · rw [(mem_ofList ascending_page).mpr onPage]
    cases (ExtTreeMap.ofList (page limit firstWanted first))[key]? with
    | none => rfl
    | some other => rfl

/-- An entry of the merged page is what both maps have under its key. -/
theorem mem_mergedPage
    (member :
      (key, value) ∈
        mergedPage limit firstWanted secondWanted first second) :
    larger (wantedValue firstWanted first key)
        (wantedValue secondWanted second key) = some value := by
  have present := FiniteMap.mem_toList.mp (List.mem_of_mem_take member)
  rw [getElem?_raiseAll ascending_page,
    getElem?_page (ascending_toList _)
      (fun entry onPage => covered_raiseAll (Or.inl ⟨entry.2, onPage⟩))
      member,
    getElem?_page (ascending_toList _)
      (fun entry onPage => covered_raiseAll (Or.inr ⟨entry.2, onPage⟩))
      member] at present
  exact present

/-- A page that lacks a wanted key is full and in front of it. -/
theorem mergedPage_behind_page
    {wanted : α × Nat → Bool}
    {map : ExtTreeMap α Nat}
    (covered :
      ∀ entry ∈ page limit wanted map,
        entry.1 ∈ (raiseAll
          (ExtTreeMap.ofList (page limit firstWanted first))
          (page limit secondWanted second)).toList.map Prod.fst)
    (found : wantedValue wanted map key = some value)
    (positive : 0 < limit)
    (absent :
      key ∉ (raiseAll (ExtTreeMap.ofList (page limit firstWanted first))
        (page limit secondWanted second)).toList.map Prod.fst) :
    mergedPage limit firstWanted secondWanted first second ≠ [] ∧
      ∀ entry ∈ mergedPage limit firstWanted secondWanted first second,
        Precedes entry.1 key := by
  obtain ⟨present, isWanted⟩ := wantedValue_eq_some.mp found
  rcases mem_page_or_behind present isWanted with listed | ⟨full, behind⟩
  · exact absurd (covered _ listed) absent
  · constructor
    · intro empty
      have some : page limit wanted map ≠ [] := by
        rw [← List.length_pos_iff, full]
        exact positive
      obtain ⟨entry, onPage⟩ := List.exists_mem_of_ne_nil _ some
      rw [mergedPage, List.take_eq_nil_iff] at empty
      rcases empty with zero | nothing
      · omega
      · have isCovered := covered entry onPage
        rw [nothing] at isCovered
        cases isCovered
    · intro entry member
      rcases precedes_cases entry.1 key with before | same | after
      · exact before
      · rw [← same] at absent
        exact absurd (List.mem_map_of_mem (List.mem_of_mem_take member))
          absent
      · have few := (ascending_toList _).length_lt_of_mem_take member
          ascending_page.nodup_keys (by
            intro other listed
            obtain ⟨onto, onPage, rfl⟩ := List.mem_map.mp listed
            exact ⟨covered onto onPage, (behind onto onPage).trans after⟩)
        rw [List.length_map, full] at few
        exact absurd few (Nat.lt_irrefl _)

/-- What the merged page lacks comes after everything on it. -/
theorem mem_mergedPage_or_behind
    (found :
      larger (wantedValue firstWanted first key)
        (wantedValue secondWanted second key) = some value)
    (positive : 0 < limit) :
    (key, value) ∈ mergedPage limit firstWanted secondWanted first second ∨
      mergedPage limit firstWanted secondWanted first second ≠ [] ∧
        ∀ entry ∈ mergedPage limit firstWanted secondWanted first second,
          Precedes entry.1 key := by
  by_cases covered :
      key ∈ (raiseAll (ExtTreeMap.ofList (page limit firstWanted first))
        (page limit secondWanted second)).toList.map Prod.fst
  · obtain ⟨⟨_, number⟩, member, rfl⟩ := List.mem_map.mp covered
    rcases (ascending_toList _).take_or_behind limit member with
      taken | ⟨full, behind⟩
    · have isValue := mem_mergedPage taken
      rw [found] at isValue
      cases isValue
      exact Or.inl taken
    · refine Or.inr ⟨?_, behind⟩
      rw [← List.length_pos_iff, mergedPage, full]
      exact positive
  · right
    cases inFirst : wantedValue firstWanted first key with
    | some number =>
        exact mergedPage_behind_page
          (fun entry onPage => covered_raiseAll (Or.inl ⟨entry.2, onPage⟩))
          inFirst positive covered
    | none =>
        rw [inFirst] at found
        cases inSecond : wantedValue secondWanted second key with
        | some number =>
            exact mergedPage_behind_page
              (fun entry onPage =>
                covered_raiseAll (Or.inr ⟨entry.2, onPage⟩))
              inSecond positive covered
        | none =>
            rw [inSecond] at found
            cases found

end Merged

end Merging

end KalpakDb.OrderedPages
