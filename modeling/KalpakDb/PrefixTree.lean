import KalpakDb.BincodeLayout
import KalpakDb.BindingEffects
import KalpakDb.MetadataRun
import KalpakDb.SelfDelimiting

namespace KalpakDb

/-!
# The prefix tree

Bindings, and the children of a key, are stored under the JSON text of their
cache keys.  The text determines the key, so what a lookup finds is what the
accepted links of the log say about that very key: its binding is the one of
the last link that bound it, its children are the keys that a link has ever
declared below it, each once and in the order they first came.
-/

open Std (ExtTreeMap)
open SelfDelimiting

/-! ## The text of a cache key -/

theorem hexEncode_injective : Function.Injective hexEncode := by
  intro first second same
  have texts : BincodeLayout.hexText first = BincodeLayout.hexText second :=
    congrArg (List.map fun digit : Char => UInt8.ofNat digit.toNat) same
  have read := BincodeLayout.hexDecode?_hexText first
  rw [texts, BincodeLayout.hexDecode?_hexText] at read
  exact (Option.some.inj read).symm

/-- The value of a lowercase hexadecimal digit. -/
def hexValue (digit : Char) : Nat :=
  if digit.toNat < 58 then digit.toNat - 48 else digit.toNat - 87

/-- What follows a backslash in a JSON string. -/
def readEscape : List Char → Option (Char × List Char)
  | '"' :: rest => some ('"', rest)
  | '\\' :: rest => some ('\\', rest)
  | 'n' :: rest => some ('\n', rest)
  | 'r' :: rest => some ('\r', rest)
  | 't' :: rest => some ('\t', rest)
  | 'b' :: rest => some (Char.ofNat 8, rest)
  | 'f' :: rest => some (Char.ofNat 12, rest)
  | 'u' :: '0' :: '0' :: high :: low :: rest =>
      some (Char.ofNat (16 * hexValue high + hexValue low), rest)
  | _ => none

/-- One character of a JSON string. -/
def readChar : List Char → Option (Char × List Char)
  | [] => none
  | char :: rest => if char = '\\' then readEscape rest else some (char, rest)

theorem jsonEscape_plain
    {char : Char}
    (quote : char ≠ '"')
    (backslash : char ≠ '\\')
    (printable : ¬ char.toNat < 32) :
    jsonEscape char = [char] := by
  have apart (control : Char) (low : control.toNat < 32) :
      char ≠ control := by
    rintro rfl
    exact printable low
  unfold jsonEscape
  rw [if_neg quote, if_neg backslash, if_neg (apart '\n' (by decide)),
    if_neg (apart '\r' (by decide)), if_neg (apart '\t' (by decide)),
    if_neg (by omega), if_neg (by omega), if_neg printable]

theorem readChar_jsonEscape (char : Char) (rest : List Char) :
    readChar (jsonEscape char ++ rest) = some (char, rest) := by
  by_cases quote : char = '"'
  · subst quote
    rfl
  by_cases backslash : char = '\\'
  · subst backslash
    rfl
  by_cases control : char.toNat < 32
  · obtain ⟨code, small, rfl⟩ : ∃ code < 32, char = Char.ofNat code :=
      ⟨char.toNat, control, (Char.ofNat_toNat char).symm⟩
    interval_cases code <;> rfl
  · rw [jsonEscape_plain quote backslash control]
    simp [readChar, backslash]

theorem jsonEscape_head (char : Char) :
    ∃ symbol rest, jsonEscape char = symbol :: rest ∧ symbol ≠ '"' := by
  by_cases quote : char = '"'
  · exact ⟨'\\', ['"'], by simp [quote, jsonEscape], by decide⟩
  · unfold jsonEscape
    simp only [quote, if_false]
    repeat' split
    all_goals first
      | exact ⟨'\\', _, rfl, by decide⟩
      | exact ⟨char, [], rfl, quote⟩

/-- A JSON string ends where it says, and determines its characters. -/
theorem delimits_jsonString : Delimits (fun _ => True) jsonString := by
  have escapes : Delimits (fun _ => True) jsonEscape :=
    delimits_of_read readChar fun char rest _ => readChar_jsonEscape char rest
  have quoted := escapes.terminated fun char _ => jsonEscape_head char
  intro first second firstRest secondRest _ _ same
  unfold jsonString at same
  simp only [List.cons_append, List.cons.injEq, true_and] at same
  exact quoted first second firstRest secondRest (fun _ _ => trivial)
    (fun _ _ => trivial) same

/-- Different cache keys have different texts. -/
theorem serdeBindingKey_injective : Function.Injective serdeBindingKey := by
  rintro ⟨⟨model, tokenizer, layout⟩, hash⟩
    ⟨⟨model', tokenizer', layout'⟩, hash'⟩ same
  have texts := congrArg String.toList same
  unfold serdeBindingKey CacheKey.toJson at texts
  simp only [String.toList_ofList, List.append_assoc,
    List.append_cancel_left_eq] at texts
  obtain ⟨sameModel, texts⟩ := delimits_jsonString _ _ _ _ trivial trivial
    texts
  obtain ⟨sameTokenizer, texts⟩ := delimits_jsonString _ _ _ _ trivial
    trivial (List.append_cancel_left texts)
  obtain ⟨sameLayout, texts⟩ := delimits_jsonString _ _ _ _ trivial trivial
    (List.append_cancel_left texts)
  obtain ⟨sameHash, -⟩ := delimits_jsonString _ _ _ _ trivial trivial
    (List.append_cancel_left texts)
  have hashes := hexEncode_injective sameHash
  cases String.toList_inj.mp sameModel
  cases String.toList_inj.mp sameTokenizer
  cases String.toList_inj.mp sameLayout
  cases hash
  cases hash'
  cases hashes
  rfl

/-! ## Lookups -/

section Lookups

variable (bindingKey : CacheKey → String) (state : MetadataState)

/-- `ControlPlane::lookup`. -/
def lookup (key : CacheKey) : Option BindingRecord :=
  state.bindings[bindingKey key]?

/-- The blocks bound to the children of a key. -/
def childBlocks (key : CacheKey) : List BlockId :=
  match state.children[bindingKey key]? with
  | none => []
  | some kids =>
      (kids.filterMap fun kid => state.bindings[kid]?).flatMap
        BindingRecord.blocks

/-- The bindings of an agent, by their texts. -/
def bindingsOf (agent : AgentId) : List (String × List BlockId) :=
  (state.bindings.toList.filter fun entry => entry.2.agent = agent).map
    fun entry => (entry.1, entry.2.blocks)

/-- The deepest hit of a chain, given the best one so far. -/
def deepestHit :
    Nat → Option (Nat × List BlockId) → List CacheKey →
      Option (Nat × List BlockId)
  | _, best, [] => best
  | depth, best, key :: rest =>
      match lookup bindingKey state key with
      | some record => deepestHit (depth + 1) (some (depth, record.blocks)) rest
      | none => best

structure LookupResp where
  hitDepth : Option Nat
  blocks : List (List Char)
  deriving DecidableEq

/-- The answer to a chain of keys, and the blocks that are warmed for it. -/
def lookupPrefix (chain : List CacheKey) : LookupResp × List BlockId :=
  match deepestHit bindingKey state 0 none chain with
  | some (depth, blocks) =>
      let lookahead :=
        chain[depth]?.elim [] (childBlocks bindingKey state)
      (⟨some depth, blocks.map fun id => hexEncode id.bytes⟩,
        blocks ++ lookahead)
  | none => (⟨none, []⟩, [])

end Lookups

/-! ## What the accepted links say -/

/-- A link and the agent that bound it. -/
abbrev BoundLink := AgentId × ChainBinding

/-- The binding of the last link that bound a key. -/
def boundBy (history : List BoundLink) (key : CacheKey) :
    Option BindingRecord :=
  (history.reverse.find? fun bound => bound.2.key = key).map fun bound =>
    ⟨bound.1, bound.2.blocks⟩

/-- The keys declared below a parent, in the order they first came. -/
def childrenIn (history : List BoundLink) (parent : CacheKey) :
    List CacheKey :=
  ((history.filter fun bound => bound.2.parent = some parent).map
    fun bound => bound.2.key).eraseDups

/-- The blocks a history has bound to a key. -/
def blocksOf (history : List BoundLink) (key : CacheKey) : List BlockId :=
  (boundBy history key).elim [] BindingRecord.blocks

/-- The bound part of a chain, up to its first key without a binding. -/
def boundPart (history : List BoundLink) (chain : List CacheKey) :
    List CacheKey :=
  chain.takeWhile fun key => (boundBy history key).isSome

/-- The answer to a chain: its deepest bound key, and what is below it. -/
def hitOf (history : List BoundLink) (chain : List CacheKey) :
    LookupResp × List BlockId :=
  (boundPart history chain).getLast?.elim (⟨none, []⟩, []) fun key =>
    (⟨some ((boundPart history chain).length - 1),
        (blocksOf history key).map fun id => hexEncode id.bytes⟩,
      blocksOf history key ++
        (childrenIn history key).flatMap (blocksOf history))

def linksOf : Option (AgentId × List ChainBinding) → List BoundLink
  | none => []
  | some (agent, links) => links.map fun link => (agent, link)

/-- The links that a log binds, in order. -/
def boundHistory
    (bindingKey : CacheKey → String)
    (entries : List Entry) : List BoundLink :=
  (StepRun.outputs (stepEntry bindingKey)
    (fun state entry => linksOf (appliedLinks bindingKey state entry)) {}
    entries).flatten

/-! ## The stored tree -/

/-- A state holds the tree of a history. -/
structure Holds
    (bindingKey : CacheKey → String)
    (state : MetadataState)
    (history : List BoundLink) : Prop where
  bindings : ∀ key, state.bindings[bindingKey key]? = boundBy history key
  texts : ∀ text ∈ state.bindings, ∃ key, text = bindingKey key
  children :
    ∀ parent,
      state.children[bindingKey parent]?.getD [] =
        (childrenIn history parent).map bindingKey

section Tree

variable {bindingKey : CacheKey → String} {state : MetadataState}
  {history : List BoundLink}

theorem Holds.empty : Holds bindingKey {} [] where
  bindings := by simp [boundBy]
  texts := by simp
  children := by simp [childrenIn]

theorem boundBy_concat (bound : BoundLink) (key : CacheKey) :
    boundBy (history ++ [bound]) key =
      if bound.2.key = key then some ⟨bound.1, bound.2.blocks⟩
      else boundBy history key := by
  unfold boundBy
  rw [List.reverse_append]
  by_cases same : bound.2.key = key <;> simp [same]

theorem eraseDups_concat (keys : List CacheKey) (key : CacheKey) :
    (keys ++ [key]).eraseDups =
      if key ∈ keys then keys.eraseDups else keys.eraseDups ++ [key] := by
  rw [List.eraseDups_append]
  split
  · next known => simp [List.removeAll, known]
  · next fresh => simp [List.removeAll, fresh, List.eraseDups_cons]

theorem childrenIn_concat (bound : BoundLink) (parent : CacheKey) :
    childrenIn (history ++ [bound]) parent =
      if bound.2.parent = some parent ∧
          bound.2.key ∉ childrenIn history parent then
        childrenIn history parent ++ [bound.2.key]
      else
        childrenIn history parent := by
  unfold childrenIn
  rw [List.filter_append, List.map_append]
  by_cases declared : bound.2.parent = some parent
  · simp only [declared, List.filter_singleton, decide_true, cond_true,
      List.map_singleton, eraseDups_concat, true_and, List.mem_eraseDups,
      ite_not]
  · simp [declared]

/-- A key is added below its declared parent once, and nowhere else. -/
theorem getD_linkChild
    (children : ExtTreeMap String (List String))
    (declared : Option String)
    (key parent : String) :
    (linkChild children declared key)[parent]?.getD [] =
      if declared = some parent ∧ key ∉ children[parent]?.getD [] then
        children[parent]?.getD [] ++ [key]
      else
        children[parent]?.getD [] := by
  cases declared with
  | none =>
      simp [linkChild]
  | some other =>
      unfold linkChild
      by_cases known : key ∈ children[other]?.getD []
      · by_cases same : other = parent
        · subst same
          simp [known]
        · simp [known, same]
      · by_cases same : other = parent
        · subst same
          simp [known]
        · simp [known, same, ExtTreeMap.getElem?_insert]

theorem Holds.bindOne
    (injective : Function.Injective bindingKey)
    (holds : Holds bindingKey state history)
    (agent : AgentId)
    (link : ChainBinding) :
    Holds bindingKey
      (KalpakDb.bindOne bindingKey state agent link.key link.blocks
        link.parent)
      (history ++ [(agent, link)]) where
  bindings := by
    intro key
    rw [boundBy_concat, ← holds.bindings]
    change (state.bindings.insert (bindingKey link.key) _)[bindingKey key]? = _
    rw [ExtTreeMap.getElem?_insert]
    by_cases same : link.key = key
    · simp [same]
    · have apart : bindingKey link.key ≠ bindingKey key := fun texts =>
        same (injective texts)
      simp [same, apart]
  texts := by
    intro text member
    change text ∈ state.bindings.insert (bindingKey link.key) _ at member
    rw [ExtTreeMap.mem_insert] at member
    obtain same | old := member
    · exact ⟨link.key, (Std.LawfulEqOrd.eq_of_compare same).symm⟩
    · exact holds.texts text old
  children := by
    intro parent
    rw [childrenIn_concat]
    have same (other : Option CacheKey) :
        other.map bindingKey = some (bindingKey parent) ↔
          other = some parent := by
      cases other with
      | none => simp
      | some key => simpa using injective.eq_iff
    have known : bindingKey link.key ∈
        (childrenIn history parent).map bindingKey ↔
          link.key ∈ childrenIn history parent :=
      List.mem_map_of_injective injective
    change (linkChild state.children (link.parent.map bindingKey)
      (bindingKey link.key))[bindingKey parent]?.getD [] = _
    rw [getD_linkChild, holds.children parent]
    simp only [same, known]
    split
    next => simp
    next => rfl

theorem Holds.bindAll
    (injective : Function.Injective bindingKey)
    (holds : Holds bindingKey state history)
    (agent : AgentId)
    (links : List ChainBinding) :
    Holds bindingKey (KalpakDb.bindAll bindingKey state agent links)
      (history ++ links.map fun link => (agent, link)) := by
  induction links generalizing state history with
  | nil =>
      simpa [KalpakDb.bindAll] using holds
  | cons link rest inductionHypothesis =>
      have later := inductionHypothesis (holds.bindOne injective agent link)
      rw [bindAll_cons]
      simpa using later

theorem Holds.of_same
    {next : MetadataState}
    (holds : Holds bindingKey state history)
    (same : SameBindings next state) :
    Holds bindingKey next history where
  bindings := same.bindings ▸ holds.bindings
  texts := same.bindings ▸ holds.texts
  children := same.children ▸ holds.children

/-- An entry extends the history by the links it binds. -/
theorem Holds.entry
    (injective : Function.Injective bindingKey)
    (consistent : state.Consistent bindingKey)
    (holds : Holds bindingKey state history)
    (entry : Entry) :
    Holds bindingKey (stepEntry bindingKey state entry)
      (history ++ linksOf (appliedLinks bindingKey state entry)) := by
  refine Holds.of_same ?_
    (applyEntry_sameBindings bindingKey consistent.leases.dormant entry)
  cases appliedLinks bindingKey state entry with
  | none =>
      simpa [bindLinks, linksOf] using holds
  | some bound =>
      exact holds.bindAll injective bound.1 bound.2

/-- A log extends the history by everything it binds. -/
theorem Holds.run
    (injective : Function.Injective bindingKey)
    (consistent : state.Consistent bindingKey)
    (holds : Holds bindingKey state history)
    (entries : List Entry) :
    Holds bindingKey (runFrom bindingKey state entries)
      (history ++ (StepRun.outputs (stepEntry bindingKey)
        (fun state entry => linksOf (appliedLinks bindingKey state entry))
        state entries).flatten) := by
  induction entries generalizing state history with
  | nil =>
      simpa [runFrom] using holds
  | cons entry rest inductionHypothesis =>
      have later := inductionHypothesis (consistent.applyEntry entry)
        (holds.entry injective consistent entry)
      rw [List.append_assoc] at later
      simpa [runFrom, stepEntry] using later

/-! ## What the lookups answer -/

/-- Every declared child has been bound. -/
theorem boundBy_isSome_of_child
    {parent child : CacheKey}
    (declared : child ∈ childrenIn history parent) :
    (boundBy history child).isSome = true := by
  unfold childrenIn at declared
  rw [List.mem_eraseDups, List.mem_map] at declared
  obtain ⟨bound, listed, rfl⟩ := declared
  unfold boundBy
  rw [Option.isSome_map, List.find?_isSome]
  exact ⟨bound, List.mem_reverse.mpr (List.mem_of_mem_filter listed),
    by simp⟩

theorem Holds.childBlocks_eq
    (holds : Holds bindingKey state history)
    (key : CacheKey) :
    childBlocks bindingKey state key =
      (childrenIn history key).flatMap (blocksOf history) := by
  have stored := holds.children key
  have merged (keys : List CacheKey) :
      ((keys.map bindingKey).filterMap fun kid => state.bindings[kid]?).flatMap
          BindingRecord.blocks =
        keys.flatMap (blocksOf history) := by
    induction keys with
    | nil =>
        rfl
    | cons child rest inductionHypothesis =>
        rw [List.map_cons, List.filterMap_cons, holds.bindings child,
          List.flatMap_cons, ← inductionHypothesis, blocksOf]
        cases boundBy history child <;> rfl
  unfold childBlocks
  cases kids : state.children[bindingKey key]? with
  | none =>
      rw [kids, Option.getD_none, eq_comm, List.map_eq_nil_iff] at stored
      rw [stored]
      rfl
  | some kids' =>
      rw [kids, Option.getD_some] at stored
      rw [stored]
      exact merged _

theorem Holds.bindingsOf_iff
    (holds : Holds bindingKey state history)
    (agent : AgentId)
    (text : String)
    (blocks : List BlockId) :
    (text, blocks) ∈ bindingsOf state agent ↔
      ∃ key, text = bindingKey key ∧
        boundBy history key = some ⟨agent, blocks⟩ := by
  unfold bindingsOf
  rw [List.mem_map]
  constructor
  · rintro ⟨⟨stored, record⟩, listed, pair⟩
    obtain ⟨present, owner⟩ := List.mem_filter.mp listed
    have found := FiniteMap.mem_toList.mp present
    obtain ⟨key, rfl⟩ := holds.texts stored
      (ExtTreeMap.isSome_getElem?_iff_mem.mp (by rw [found]; rfl))
    obtain ⟨rfl, rfl⟩ := Prod.mk.inj pair
    refine ⟨key, rfl, ?_⟩
    rw [← holds.bindings, found]
    have same : record.agent = agent := of_decide_eq_true owner
    rw [← same]
  · rintro ⟨key, rfl, bound⟩
    refine ⟨(bindingKey key, ⟨agent, blocks⟩), List.mem_filter.mpr ?_, rfl⟩
    refine ⟨FiniteMap.mem_toList.mpr ?_, by simp⟩
    rw [holds.bindings, bound]

theorem Holds.deepestHit_eq
    (holds : Holds bindingKey state history)
    (depth : Nat)
    (best : Option (Nat × List BlockId))
    (chain : List CacheKey) :
    deepestHit bindingKey state depth best chain =
      (boundPart history chain).getLast?.elim best fun key =>
        (boundBy history key).map fun record =>
          (depth + (boundPart history chain).length - 1, record.blocks) := by
  induction chain generalizing depth best with
  | nil =>
      rfl
  | cons key rest inductionHypothesis =>
      have found : lookup bindingKey state key = boundBy history key :=
        holds.bindings key
      unfold deepestHit
      rw [found]
      cases bound : boundBy history key with
      | none =>
          simp [boundPart, bound]
      | some record =>
          have part : boundPart history (key :: rest) =
              key :: boundPart history rest := by
            simp [boundPart, bound]
          rw [part]
          simp only [inductionHypothesis]
          cases later : boundPart history rest with
          | nil =>
              simp [bound]
          | cons next more =>
              have shift (count : Nat) :
                  depth + 1 + (count + 1) - 1 =
                    depth + (count + 1 + 1) - 1 := by
                omega
              simp only [List.getLast?_cons_cons, List.length_cons, shift]
              rw [List.getLast?_eq_some_getLast (List.cons_ne_nil _ _)]
              rfl

/-- The last bound key of a chain is bound, and stands where it was hit. -/
theorem boundPart_last
    {chain : List CacheKey}
    {key : CacheKey}
    (last : (boundPart history chain).getLast? = some key) :
    (∃ record, boundBy history key = some record) ∧
      chain[(boundPart history chain).length - 1]? = some key := by
  have listed : key ∈ boundPart history chain := List.mem_of_getLast? last
  have found := List.mem_takeWhile_imp listed
  refine ⟨Option.isSome_iff_exists.mp found, ?_⟩
  rw [List.getLast?_eq_getElem?] at last
  obtain ⟨rest, split⟩ : boundPart history chain <+: chain :=
    List.takeWhile_prefix _
  have inside : (boundPart history chain).length - 1 <
      (boundPart history chain).length := by
    have := List.length_pos_of_mem listed
    omega
  rw [← last, ← List.getElem?_append_left inside, split]

theorem Holds.lookupPrefix_eq
    (holds : Holds bindingKey state history)
    (chain : List CacheKey) :
    lookupPrefix bindingKey state chain = hitOf history chain := by
  unfold lookupPrefix hitOf
  rw [holds.deepestHit_eq]
  cases last : (boundPart history chain).getLast? with
  | none =>
      rfl
  | some key =>
      obtain ⟨⟨record, bound⟩, placed⟩ := boundPart_last last
      simp only [Option.elim_some, bound, Option.map_some, Nat.zero_add,
        placed, holds.childBlocks_eq, blocksOf]

end Tree

/--
What the prefix tree answers after any log is what the links it has accepted
say, if different keys are stored under different texts.  A key has the binding of the last link that bound it; the lookahead of a
key is the blocks of every key declared below it, all of them bound, each
once and in the order they first came; an agent's bindings are the keys whose
last link is the agent's; and a chain of keys is hit at the last key before
the first one without a binding.
-/
theorem prefix_lookups_follow_history
    (bindingKey : CacheKey → String)
    (injective : Function.Injective bindingKey)
    (entries : List Entry) :
    let state := runFrom bindingKey {} entries
    let history := boundHistory bindingKey entries
    (∀ key, lookup bindingKey state key = boundBy history key) ∧
    (∀ key,
      (∀ child ∈ childrenIn history key,
        (boundBy history child).isSome = true) ∧
      childBlocks bindingKey state key =
        (childrenIn history key).flatMap (blocksOf history)) ∧
    (∀ agent text blocks,
      (text, blocks) ∈ bindingsOf state agent ↔
        ∃ key, text = bindingKey key ∧
          boundBy history key = some ⟨agent, blocks⟩) ∧
    ∀ chain,
      lookupPrefix bindingKey state chain = hitOf history chain := by
  have holds : Holds bindingKey (runFrom bindingKey {} entries)
      (boundHistory bindingKey entries) := by
    simpa [boundHistory] using Holds.empty.run injective .empty entries
  exact ⟨holds.bindings,
    fun key => ⟨fun child declared => boundBy_isSome_of_child declared,
      holds.childBlocks_eq key⟩,
    holds.bindingsOf_iff, holds.lookupPrefix_eq⟩

def chainKey (hash : UInt8) : CacheKey :=
  ⟨⟨"model", "tokenizer", "layout"⟩, .filled hash⟩

/-- An agent binds a key and one below it. -/
def chainedLog : List Entry :=
  [⟨⟨⟨1, 1⟩, 1⟩, .normal (.registerAgent (.filled 1) "agent")⟩,
    ⟨⟨⟨1, 1⟩, 2⟩,
      .normal (.bindChain (.filled 1)
        [⟨chainKey 1, [.filled 2], none⟩,
          ⟨chainKey 2, [.filled 3], some (chainKey 1)⟩])⟩]

/-- A chain that leaves the bound keys behind the first one. -/
theorem prefix_lookups_follow_history_chained :
    lookupPrefix serdeBindingKey (runFrom serdeBindingKey {} chainedLog)
        [chainKey 1, chainKey 3] =
      (⟨some 0, [hexEncode (BlockId.filled 2).bytes]⟩,
        [.filled 2, .filled 3]) := by
  rw [(prefix_lookups_follow_history serdeBindingKey
    serdeBindingKey_injective chainedLog).2.2.2]
  decide +kernel

end KalpakDb
