import KalpakDb.MetadataRun

namespace KalpakDb

/-!
# Exact block reference counts

The reference table holds, for each block, the number of times it occurs in
the block lists of all bindings, and holds nothing for a block that does not
occur.  Rebinding releases the old list and takes the new one.  The counters
are 32 bits wide, so the result needs every count met on the way to fit.
-/

open Std (ExtTreeMap ExtTreeSet)

/-- How often a block occurs in the block lists of all bindings. -/
def occurrences (state : MetadataState) (block : BlockId) : Nat :=
  FiniteMap.total (fun _ (record : BindingRecord) => record.blocks.count block)
    state.bindings

/-- A reference table that stores exactly the given counts. -/
def CountsExactly
    (refs : ExtTreeMap BlockId UInt32)
    (count : BlockId → Nat) : Prop :=
  ∀ block,
    count block < 2 ^ 32 ∧
      refs[block]? =
        if count block = 0 then none
        else some (UInt32.ofNat (count block))

/-! ## Releasing and taking references -/

section Tables

variable {refs : ExtTreeMap BlockId UInt32} {count : BlockId → Nat}

theorem releaseRef_exact
    (exact : CountsExactly refs count)
    (block : BlockId)
    (held : 0 < count block) :
    CountsExactly (releaseRef refs block)
      (fun other => count other - if other = block then 1 else 0) := by
  have bound := (exact block).1
  have found :
      refs[block]? = some (UInt32.ofNat (count block)) := by
    rw [(exact block).2, if_neg (by omega)]
  have nonzero : UInt32.ofNat (count block) ≠ 0 := by
    intro zero
    have value := congrArg UInt32.toNat zero
    rw [UInt32.toNat_ofNat', UInt32.toNat_zero] at value
    omega
  have remaining :
      UInt32.ofNat (count block) - 1 = UInt32.ofNat (count block - 1) := by
    apply UInt32.toNat_inj.mp
    rw [UInt32.toNat_sub, UInt32.toNat_one, UInt32.toNat_ofNat',
      UInt32.toNat_ofNat']
    omega
  have lastOne :
      UInt32.ofNat (count block - 1) = 0 ↔ count block = 1 := by
    rw [← UInt32.toNat_inj, UInt32.toNat_ofNat', UInt32.toNat_zero]
    omega
  have table :
      releaseRef refs block =
        if count block = 1 then refs.erase block
        else refs.insert block (UInt32.ofNat (count block - 1)) := by
    simp only [releaseRef, found, nonzero, if_false, remaining, lastOne]
  intro other
  by_cases same : block = other
  · subst other
    refine ⟨by simp only [if_true]; omega, ?_⟩
    rw [table]
    by_cases single : count block = 1
    · simp [single]
    · have several : count block - 1 ≠ 0 := by omega
      simp [single, several]
  · have untouched : (releaseRef refs block)[other]? = refs[other]? := by
      rw [table]
      split
      · simp [ExtTreeMap.getElem?_erase, same]
      · simp [ExtTreeMap.getElem?_insert, same]
    rw [untouched]
    simpa [Ne.symm same] using exact other

theorem addRef_exact
    (exact : CountsExactly refs count)
    (block : BlockId)
    (fits : count block + 1 < 2 ^ 32) :
    CountsExactly (addRef refs block)
      (fun other => count other + if other = block then 1 else 0) := by
  have bound := (exact block).1
  have value :
      refs[block]?.getD 0 + 1 = UInt32.ofNat (count block + 1) := by
    rw [(exact block).2]
    apply UInt32.toNat_inj.mp
    split
    · rename_i zero
      simp [zero]
    · rw [Option.getD_some, UInt32.toNat_add, UInt32.toNat_one,
        UInt32.toNat_ofNat', UInt32.toNat_ofNat']
      omega
  intro other
  unfold addRef
  rw [value]
  by_cases same : block = other
  · subst other
    exact ⟨by simpa using fits, by simp⟩
  · simpa [ExtTreeMap.getElem?_insert, same, Ne.symm same] using exact other

theorem CountsExactly.congr
    {other : BlockId → Nat}
    (exact : CountsExactly refs count)
    (same : ∀ block, other block = count block) :
    CountsExactly refs other := by
  have equal : other = count := funext same
  rw [equal]
  exact exact

theorem releaseAll_exact
    (exact : CountsExactly refs count)
    {blocks : List BlockId}
    (held : ∀ block, blocks.count block ≤ count block) :
    CountsExactly (blocks.foldl releaseRef refs)
      (fun block => count block - blocks.count block) := by
  induction blocks generalizing refs count with
  | nil =>
      simpa using exact
  | cons first rest inductionHypothesis =>
      have firstHeld := held first
      rw [List.count_cons_self] at firstHeld
      have released := releaseRef_exact exact first (by omega)
      refine (inductionHypothesis released ?_).congr ?_
      · intro block
        have blockHeld := held block
        rw [List.count_cons] at blockHeld
        by_cases same : block = first
        · simp [same] at blockHeld ⊢
          omega
        · simp [same, Ne.symm same] at blockHeld ⊢
          omega
      · intro block
        rw [List.count_cons]
        by_cases same : block = first
        · simp [same]
          omega
        · simp [same, Ne.symm same]

theorem addAll_exact
    (exact : CountsExactly refs count)
    {blocks : List BlockId}
    (fits : ∀ block, count block + blocks.count block < 2 ^ 32) :
    CountsExactly (blocks.foldl addRef refs)
      (fun block => count block + blocks.count block) := by
  induction blocks generalizing refs count with
  | nil =>
      simpa using exact
  | cons first rest inductionHypothesis =>
      have firstFits := fits first
      rw [List.count_cons_self] at firstFits
      have added := addRef_exact exact first (by omega)
      refine (inductionHypothesis added ?_).congr ?_
      · intro block
        have blockFits := fits block
        rw [List.count_cons] at blockFits
        by_cases same : block = first
        · simp [same] at blockFits ⊢
          omega
        · simp [same, Ne.symm same] at blockFits ⊢
          omega
      · intro block
        rw [List.count_cons]
        by_cases same : block = first
        · simp [same]
          omega
        · simp [same, Ne.symm same]

end Tables

/-! ## Binding keeps the table exact -/

/-- The state's reference table matches its bindings. -/
def RefsExact (state : MetadataState) : Prop :=
  CountsExactly state.blockRefs (occurrences state)

/-- No block occurs so often that its counter would wrap. -/
def CountsFit (state : MetadataState) : Prop :=
  ∀ block, occurrences state block < 2 ^ 32

section Binding

variable (bindingKey : CacheKey → String) {state : MetadataState}

theorem bindOne_refsExact
    (exact : RefsExact state)
    (agent : AgentId)
    (key : CacheKey)
    (blocks : List BlockId)
    (parent : Option CacheKey)
    (fits : CountsFit (bindOne bindingKey state agent key blocks parent)) :
    RefsExact (bindOne bindingKey state agent key blocks parent) := by
  have balance :
      ∀ block,
        occurrences (bindOne bindingKey state agent key blocks parent) block +
            state.bindings[bindingKey key]?.elim 0
              (fun old => old.blocks.count block) =
          occurrences state block + blocks.count block :=
    fun block => FiniteMap.total_insert
      (fun _ (record : BindingRecord) => record.blocks.count block)
      state.bindings (bindingKey key) ⟨agent, blocks⟩
  have table :
      (bindOne bindingKey state agent key blocks parent).blockRefs =
        rebindRefs state.blockRefs state.bindings[bindingKey key]?
          blocks := rfl
  unfold RefsExact
  rw [table]
  generalize bindOne bindingKey state agent key blocks parent = next
    at balance fits
  cases found : state.bindings[bindingKey key]? with
  | none =>
      simp only [found, Option.elim_none, Nat.add_zero] at balance
      refine (addAll_exact exact ?_).congr balance
      intro block
      rw [← balance]
      exact fits block
  | some old =>
      simp only [found, Option.elim_some] at balance
      have held :
          ∀ block, old.blocks.count block ≤ occurrences state block :=
        fun block => FiniteMap.measure_le_total
          (fun _ (record : BindingRecord) => record.blocks.count block) found
      refine (addAll_exact (releaseAll_exact exact held) ?_).congr ?_
      · intro block
        have blockBalance := balance block
        have blockHeld := held block
        have blockFits := fits block
        omega
      · intro block
        have blockBalance := balance block
        have blockHeld := held block
        omega

/-- A chain keeps the table exact when every prefix of it fits. -/
theorem bindAll_refsExact
    (exact : RefsExact state)
    (agent : AgentId)
    (links : List ChainBinding)
    (fits :
      ∀ taken, taken <+: links →
        CountsFit (bindAll bindingKey state agent taken)) :
    RefsExact (bindAll bindingKey state agent links) := by
  induction links generalizing state with
  | nil =>
      exact exact
  | cons link rest inductionHypothesis =>
      have first : RefsExact
          (bindOne bindingKey state agent link.key link.blocks link.parent) :=
        bindOne_refsExact bindingKey exact agent link.key link.blocks
          link.parent (fits [link] ⟨rest, rfl⟩)
      refine inductionHypothesis first ?_
      intro taken extending
      exact fits (link :: taken) (List.cons_prefix_cons.mpr ⟨rfl, extending⟩)

/-- Binding the links of an entry keeps the table exact while they fit. -/
theorem stepEntry_refsExact
    (dormant : state.leases.Dormant)
    (exact : RefsExact state)
    {entry : Entry}
    (fits :
      ∀ agent links, appliedLinks bindingKey state entry = some (agent, links) →
        ∀ taken, taken <+: links →
          CountsFit (bindAll bindingKey state agent taken)) :
    RefsExact (stepEntry bindingKey state entry) := by
  have same := applyEntry_sameBindings bindingKey dormant entry
  have bound :
      RefsExact
        (bindLinks bindingKey state (appliedLinks bindingKey state entry)) := by
    cases applied : appliedLinks bindingKey state entry with
    | none =>
        exact exact
    | some agentLinks =>
        exact bindAll_refsExact bindingKey exact _ _ (fits _ _ applied)
  unfold RefsExact occurrences at bound ⊢
  unfold stepEntry
  rw [same.bindings, same.blockRefs]
  exact bound

end Binding

theorem refsExact_empty : RefsExact {} := by
  intro block
  simp [occurrences]

/-- No block occurs more often than all blocks together. -/
theorem occurrences_le_total
    (state : MetadataState)
    (block : BlockId) :
    occurrences state block ≤
      FiniteMap.total
        (fun _ (record : BindingRecord) => record.blocks.length)
        state.bindings := by
  unfold occurrences FiniteMap.total
  apply List.sum_le_sum
  intro entry _
  exact List.count_le_length

/-- Along a run that fits, the table stays exact. -/
theorem stateAt_refsExact
    {bindingKey : CacheKey → String}
    {entries : List Entry}
    (fits :
      ∀ position entry agent links,
        entries[position]? = some entry →
        appliedLinks bindingKey (stateAt bindingKey {} entries position)
            entry = some (agent, links) →
        ∀ taken, taken <+: links →
          CountsFit
            (bindAll bindingKey (stateAt bindingKey {} entries position)
              agent taken))
    (position : Nat) :
    RefsExact (stateAt bindingKey {} entries position) := by
  refine StepRun.holds_before RefsExact refsExact_empty ?_ position
  intro position entry present earlier
  have consistent :
      (stateAt bindingKey {} entries position).Consistent bindingKey :=
    stateAt_consistent .empty position
  exact stepEntry_refsExact bindingKey consistent.leases.dormant earlier
    (fun agent links => fits position entry agent links present)

theorem mem_boundBlocks_iff
    (state : MetadataState)
    (block : BlockId) :
    block ∈ boundBlocks state ↔ 0 < occurrences state block := by
  unfold boundBlocks occurrences
  rw [FiniteMap.total_pos_iff, ExtTreeSet.mem_insertMany_list]
  simp only [ExtTreeSet.not_mem_empty, List.contains_iff_mem, false_or,
    List.mem_flatMap, FiniteMap.mem_values, List.count_pos_iff]
  constructor
  · rintro ⟨record, ⟨key, found⟩, member⟩
    exact ⟨key, record, found, member⟩
  · rintro ⟨key, record, found, member⟩
    exact ⟨record, ⟨key, found⟩, member⟩

/--
Reference counts are exact in every state of every run from the empty state
whose binds keep all counts below the width of the counter.
-/
theorem block_refs_exact
    (bindingKey : CacheKey → String)
    (entries : List Entry)
    (fits :
      ∀ position entry agent links,
        entries[position]? = some entry →
        appliedLinks bindingKey (stateAt bindingKey {} entries position)
            entry = some (agent, links) →
        ∀ taken, taken <+: links →
          ∀ block,
            occurrences
              (bindAll bindingKey (stateAt bindingKey {} entries position)
                agent taken) block < 2 ^ 32)
    (position : Nat)
    (block : BlockId) :
    let state := stateAt bindingKey {} entries position
    (blockRefCount state block).toNat = occurrences state block ∧
    (block ∈ state.blockRefs ↔ 0 < occurrences state block) ∧
    (block ∈ boundBlocks state ↔ 0 < blockRefCount state block) := by
  intro state
  have exact : RefsExact state := stateAt_refsExact fits position
  obtain ⟨bound, stored⟩ := exact block
  have counted :
      (blockRefCount state block).toNat = occurrences state block := by
    unfold blockRefCount
    rw [stored]
    split
    · rename_i zero
      simp [zero]
    · rw [Option.getD_some, UInt32.toNat_ofNat']
      omega
  refine ⟨counted, ?_, ?_⟩
  · rw [ExtTreeMap.mem_iff_isSome_getElem?, stored]
    split
    · rename_i zero
      simp [zero]
    · simp only [Option.isSome_some, true_iff]
      omega
  · rw [mem_boundBlocks_iff, UInt32.lt_iff_toNat_lt, counted,
      UInt32.toNat_zero]

/-- A key bound twice: first with a repeated block, then with another list. -/
def reboundLog : List Entry :=
  let key : CacheKey := ⟨⟨"model", "tokenizer", "layout"⟩, .filled 7⟩
  [⟨⟨⟨1, 1⟩, 1⟩,
      .normal (.bindPrefix (.filled 1) key [.filled 2, .filled 2] none)⟩,
    ⟨⟨⟨1, 1⟩, 2⟩,
      .normal (.bindPrefix (.filled 1) key [.filled 2, .filled 3] none)⟩]

theorem block_refs_exact_rebound :
    let state := stateAt serdeBindingKey {} reboundLog 2
    blockRefCount state (.filled 2) = 1 ∧
    (blockRefCount state (.filled 2)).toNat =
      occurrences state (.filled 2) ∧
    (.filled 2 ∈ state.blockRefs ↔ 0 < occurrences state (.filled 2)) ∧
    (.filled 2 ∈ boundBlocks state ↔
      0 < blockRefCount state (.filled 2)) := by
  refine ⟨by decide +kernel, block_refs_exact serdeBindingKey reboundLog ?_
    2 (.filled 2)⟩
  have small :
      ∀ position < 2, ∀ entry ∈ reboundLog[position]?,
        ∀ bound ∈ appliedLinks serdeBindingKey
            (stateAt serdeBindingKey {} reboundLog position) entry,
        ∀ taken ∈ bound.2.inits,
          FiniteMap.total
            (fun _ (record : BindingRecord) => record.blocks.length)
            (bindAll serdeBindingKey
              (stateAt serdeBindingKey {} reboundLog position) bound.1
              taken).bindings < 2 ^ 32 := by
    decide +kernel
  intro position entry agent links present applied taken extending block
  have within : position < 2 := (List.getElem?_eq_some_iff.mp present).1
  exact lt_of_le_of_lt (occurrences_le_total _ block)
    (small position within entry present (agent, links) applied taken
      ((List.mem_inits taken links).mpr extending))

end KalpakDb
